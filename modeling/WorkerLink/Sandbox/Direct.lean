import WorkerLink.Rehearsal.Performance
import WorkerLink.Sandbox.Hosted

/-!
Using a worker of the sandbox without a connection: one request after another, each to its end. The
clock goes forward while a request waits.
-/

namespace WorkerLink.Sandbox

structure Direct where
  hosted : Hosted
  clock : Nat := 0

namespace Direct

def sleep (d : Direct) (ms : Nat) : Direct :=
  let clock := d.clock + ms
  { clock, hosted := d.hosted.advance clock }

/-- Goes on with a request until it is answered. -/
def follow (cancel : Bool) : Nat → Direct → Pending → Direct × Option Input
  | 0, d, _ => (d, none)
  | fuel + 1, d, pending =>
    match d.hosted.turn d.clock cancel pending with
    | .answers input _ hosted _ => ({ d with hosted }, some input)
    | .proceeds hosted pending _ => follow cancel fuel { d with hosted } pending
    | .waits until? =>
      match Rehearsal.Performance.earlier until? d.hosted.system.wakeTime? with
      | none => (d, none)
      | some time => follow cancel fuel (d.sleep (max 1 (time - d.clock))) pending
    | .yields _ _ _ | .raises _ => (d, none)

def ask (d : Direct) (cancel : Bool) (pending : Pending) : Direct × Option Input :=
  follow cancel Hosted.stamina d pending

def send (d : Direct) (cancel : Bool) (bytes : Bytes) : Direct × Except Fault Nat :=
  match d.ask cancel (.startSend bytes) with
  | (d, some (.wrote result)) => (d, result)
  | (d, _) => (d, .ok 0)

/-- Reads until so many bytes have come or the worker is gone, and at least once. Bytes and
diagnostics are kept in front of what is read. -/
def receive (max want : Nat) : Nat → Direct → Bytes → Bytes → Direct × Bytes × Bytes
  | 0, d, bytes, stderr => (d, bytes, stderr)
  | fuel + 1, d, bytes, stderr =>
    match d.ask false (.startReceive max) with
    | (d, some (.read more (.ok chunk))) =>
      let bytes := bytes ++ chunk
      let stderr := stderr ++ more
      if bytes.length < want ∧ d.hosted.child.isAlive then receive max want fuel d bytes stderr
      else (d, bytes, stderr)
    | (d, _) => (d, bytes, stderr)

def close (d : Direct) : Direct := { d with hosted := d.hosted.close }

def cancel (d : Direct) : Direct :=
  { d with hosted := { d.hosted with child := d.hosted.child.cancelReceive } }

end Direct

end WorkerLink.Sandbox
