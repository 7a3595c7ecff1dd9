import WorkerLink.Arguments.Split
import WorkerLink.Proofs.Bytes.Lossy

/-!
# Where the worker's command starts

The flags of the bridge stand in front, each with its value (`Flags`), and what
follows them is the worker's. An argument is a flag by its text, also where the
bytes of a value behind the equals sign are no text (`isConfigFlag_iff`). Every
list of arguments consists of flags and of what ends them (`Stops`), and nothing
past the first argument of the worker has any part in it.
-/

namespace WorkerLink.Arguments

/-- The text of the argument, damaged or not, names a flag up to its first equals sign. -/
def NamesFlag (argument : Bytes) : Prop :=
  ∃ flag : Flag, (Text.Utf8.lossy argument).toList.takeWhile (· ≠ '=') = flag.written.toList

/-- There is an equals sign in the text of the argument. -/
def BringsValue (argument : Bytes) : Prop := '=' ∈ (Text.Utf8.lossy argument).toList

theorem Flag.mem_all (flag : Flag) : flag ∈ Flag.all := by
  cases flag with
  | configPath => decide
  | setting s => cases s <;> decide

/-- The name of a flag is a text without damage. -/
theorem Flag.written_whole (flag : Flag) : Text.Utf8.replacement ∉ flag.written.toList := by
  have hall : ∀ flag ∈ Flag.all, Text.Utf8.replacement ∉ flag.written.toList := by decide +kernel
  exact hall flag flag.mem_all

section Recognition

variable {argument : Bytes}

theorem hasValue_iff : hasValue argument = true ↔ BringsValue argument := by
  have hiff : '=' ∈ (Text.Utf8.lossy argument).toList ↔ (61 : UInt8) ∈ argument :=
    Text.Utf8.mem_lossy_iff (b := 61) (by decide)
  rw [hasValue, List.contains_iff_mem, BringsValue, hiff]

theorem takeWhile_flagPart : (Text.Utf8.lossy argument).toList.takeWhile (· ≠ '=') =
    (Text.Utf8.lossy (flagPart argument)).toList :=
  Text.Utf8.takeWhile_lossy (b := 61) (by decide)

/-- A flag is recognised by its bytes exactly if it is by its text. -/
theorem isConfigFlag_iff : isConfigFlag argument = true ↔ NamesFlag argument := by
  have same (flag : Flag) : flagPart argument = Bytes.ofString flag.written ↔
      (Text.Utf8.lossy argument).toList.takeWhile (· ≠ '=') = flag.written.toList := by
    rw [takeWhile_flagPart, String.toList_inj, Text.Utf8.lossy_eq_iff flag.written_whole]
  simp only [isConfigFlag, List.any_eq_true, decide_eq_true_eq, same, NamesFlag]
  exact ⟨fun ⟨flag, _, h⟩ => ⟨flag, h⟩, fun ⟨flag, h⟩ => ⟨flag, flag.mem_all, h⟩⟩

end Recognition

/-- Flags, each with its value behind an equals sign or in the next argument, whatever that is. -/
inductive Flags : List Bytes → Prop
  | none : Flags []
  | attached {flag : Bytes} {rest : List Bytes} : NamesFlag flag → BringsValue flag →
      Flags rest → Flags (flag :: rest)
  | detached {flag value : Bytes} {rest : List Bytes} : NamesFlag flag → ¬ BringsValue flag →
      Flags rest → Flags (flag :: value :: rest)

/-- What ends the flags, and what of it is still for the bridge: nothing comes any more, or the last
flag lacks its value, or the worker's command starts. -/
inductive Stops : List Bytes → List Bytes → Prop
  | nothing : Stops [] []
  | lacksValue {flag : Bytes} : NamesFlag flag → ¬ BringsValue flag → Stops [flag] [flag]
  | worker {worker : Bytes} {rest : List Bytes} : ¬ NamesFlag worker → Stops (worker :: rest) []

section Division

variable {flags rest last : List Bytes} {flag : Bytes}

theorem ofFlags_of_not_namesFlag (h : ¬ NamesFlag flag) : Split.ofFlags (flag :: rest) = {} := by
  have hnot : isConfigFlag flag = false := by
    rw [Bool.eq_false_iff, ne_eq, isConfigFlag_iff]
    exact h
  rw [Split.ofFlags.eq_def]
  simp only [hnot, Bool.not_false, if_true]

theorem ofFlags_attached (names : NamesFlag flag) (brings : BringsValue flag) :
    Split.ofFlags (flag :: rest) = (Split.ofFlags rest).push flag := by
  rw [Split.ofFlags.eq_def]
  simp only [isConfigFlag_iff.mpr names, hasValue_iff.mpr brings, Bool.not_true,
    Bool.false_eq_true, if_false, if_true]

theorem ofFlags_of_not_brings (names : NamesFlag flag) (lacks : ¬ BringsValue flag) :
    Split.ofFlags (flag :: rest) = match rest with
      | [] => Split.push flag {}
      | value :: rest => ((Split.ofFlags rest).push value).push flag := by
  have hnot : hasValue flag = false := by
    rw [Bool.eq_false_iff, ne_eq, hasValue_iff]
    exact lacks
  rw [Split.ofFlags.eq_def]
  dsimp only
  rw [isConfigFlag_iff.mpr names, hnot]
  rfl

theorem Stops.ofFlags_eq (h : Stops rest last) : Split.ofFlags rest = ⟨last, last.length⟩ := by
  cases h with
  | nothing => rfl
  | lacksValue names lacks => exact ofFlags_of_not_brings names lacks
  | worker names => exact ofFlags_of_not_namesFlag names

/-- Flags are passed over, whatever follows them. -/
theorem Flags.ofFlags_append (h : Flags flags) (stops : Stops rest last) :
    Split.ofFlags (flags ++ rest) = ⟨flags ++ last, (flags ++ last).length⟩ := by
  induction h with
  | none => exact stops.ofFlags_eq
  | attached names brings _ ih => rw [List.cons_append, ofFlags_attached names brings, ih]; rfl
  | detached names lacks _ ih =>
    rw [List.cons_append, List.cons_append, ofFlags_of_not_brings names lacks]
    dsimp only
    rw [ih]
    rfl

/-- Every list of arguments consists of flags and what ends them. -/
theorem exists_flags (arguments : List Bytes) : ∃ flags rest last,
    arguments = flags ++ rest ∧ Flags flags ∧ Stops rest last := by
  induction arguments using Split.ofFlags.induct with
  | case1 => exact ⟨[], [], [], rfl, .none, .nothing⟩
  | case2 flag rest hnot =>
    have hnames : ¬ NamesFlag flag := by
      rw [← isConfigFlag_iff]
      simpa using hnot
    exact ⟨[], flag :: rest, [], rfl, .none, .worker hnames⟩
  | case3 flag rest hflag hvalue ih =>
    obtain ⟨flags, rest, last, rfl, hflags, hstops⟩ := ih
    have hnames : NamesFlag flag := isConfigFlag_iff.mp (by simpa using hflag)
    exact ⟨flag :: flags, rest, last, rfl, .attached hnames (hasValue_iff.mp hvalue) hflags, hstops⟩
  | case4 flag hflag hvalue =>
    have hnames : NamesFlag flag := isConfigFlag_iff.mp (by simpa using hflag)
    exact ⟨[], [flag], [flag], rfl, .none, .lacksValue hnames (mt hasValue_iff.mpr hvalue)⟩
  | case5 flag hflag hvalue value rest ih =>
    obtain ⟨flags, rest, last, rfl, hflags, hstops⟩ := ih
    have hnames : NamesFlag flag := isConfigFlag_iff.mp (by simpa using hflag)
    exact ⟨flag :: value :: flags, rest, last, rfl,
      .detached hnames (mt hasValue_iff.mpr hvalue) hflags, hstops⟩

theorem Stops.again (h : Stops rest last) : Stops last last := by
  cases h with
  | nothing | worker _ => exact .nothing
  | lacksValue names lacks => exact .lacksValue names lacks

/-- What is not for the bridge starts with the worker, and then no flag has been left without its
value. -/
theorem Stops.exists_more (h : Stops rest last) : ∃ more, rest = last ++ more ∧
    ∀ worker after, more = worker :: after → last = [] ∧ ¬ NamesFlag worker := by
  cases h with
  | nothing => exact ⟨[], rfl, nofun⟩
  | lacksValue _ _ => exact ⟨[], rfl, nofun⟩
  | @worker worker rest names =>
    refine ⟨worker :: rest, rfl, ?_⟩
    rintro _ _ ⟨⟩
    exact ⟨rfl, names⟩

theorem ofArguments_flags {program : Bytes} (h : Flags flags) (stops : Stops rest last) :
    Split.ofArguments (program :: (flags ++ rest)) =
      ⟨program :: (flags ++ last), (program :: (flags ++ last)).length⟩ := by
  rw [Split.ofArguments, h.ofFlags_append stops]
  rfl

end Division

/-- The arguments of the bridge are so many from the front and the others are the worker's, whatever
the arguments are. Where there are others, the flags end with all their values at the first argument
that is none, and nothing behind that argument makes a difference. The arguments of the bridge
belong to it also when there is no worker. -/
theorem splits_at_the_worker (arguments : List Bytes) :
    let s := Split.ofArguments arguments
    (s.configArguments = arguments.take s.commandStart ∧
      s.configArguments.length = s.commandStart) ∧
    s.configArguments ++ (s.workerArguments arguments).tail = arguments ∧
    (∀ worker, s.commandStart ≠ 0 → arguments[s.commandStart]? = some worker →
      ¬ NamesFlag worker ∧ Flags s.configArguments.tail ∧
      ∀ others, others.take (s.commandStart + 1) = arguments.take (s.commandStart + 1) →
        Split.ofArguments others = s) ∧
    Split.ofArguments s.configArguments = s := by
  cases arguments with
  | nil => exact ⟨⟨rfl, rfl⟩, rfl, fun _ hstart => absurd rfl hstart, rfl⟩
  | cons program arguments =>
    intro s
    obtain ⟨flags, rest, last, rfl, hflags, hstops⟩ := exists_flags arguments
    obtain ⟨more, rfl, hmore⟩ := hstops.exists_more
    have hs : s = ⟨program :: (flags ++ last), (program :: (flags ++ last)).length⟩ :=
      ofArguments_flags hflags hstops
    have hall : program :: (flags ++ (last ++ more)) = program :: (flags ++ last) ++ more := by
      rw [List.cons_append, List.append_assoc]
    rw [hs, hall]
    refine ⟨⟨List.take_left.symm, rfl⟩, ?_, ?_, ofArguments_flags hflags hstops.again⟩
    · rw [Split.workerArguments, List.drop_left]
      rfl
    · intro worker _ hworker
      obtain ⟨after, rfl⟩ : ∃ after, more = worker :: after := by
        rw [List.getElem?_append_right (Nat.le_refl _), Nat.sub_self] at hworker
        cases more with
        | nil => cases hworker
        | cons first after =>
          cases hworker
          exact ⟨after, rfl⟩
      obtain ⟨rfl, hnames⟩ := hmore worker after rfl
      rw [List.append_nil]
      refine ⟨hnames, hflags, fun others hothers => ?_⟩
      have hfront : others.take ((program :: flags).length + 1) = program :: flags ++ [worker] :=
        hothers.trans (List.take_length_add_append 1)
      have hothers' : others = program ::
          (flags ++ worker :: others.drop ((program :: flags).length + 1)) := by
        rw [← List.cons_append, List.append_cons, ← hfront, List.take_append_drop]
      rw [hothers', ofArguments_flags hflags (.worker hnames), List.append_nil]

/-- A flag takes another one for its value, and a value behind an equals sign is no text. The worker
has a flag of the same name; any other argument in its place would make no difference. -/
theorem splits_at_the_worker_behind_values :
    let word := Bytes.ofString
    let front := [word "rpcpipe", word "--log-format", word "--log-filter",
      word "--log-filter=" ++ [255]]
    let arguments := front ++ [word "rust-analyzer", word "--log-filter", word "x"]
    Split.ofArguments arguments = ⟨front, 4⟩ ∧
    ¬ NamesFlag (word "rust-analyzer") ∧ Flags front.tail ∧
    Split.ofArguments (front ++ [word "rust-analyzer", word "--log-format=json"]) = ⟨front, 4⟩ ∧
    Split.ofArguments front = ⟨front, 4⟩ := by
  intro word front arguments
  have hs : Split.ofArguments arguments = ⟨front, 4⟩ := by decide +kernel
  have hsplits := splits_at_the_worker arguments
  rw [hs] at hsplits
  obtain ⟨-, -, hworker, hagain⟩ := hsplits
  obtain ⟨hnames, hflags, hothers⟩ := hworker (word "rust-analyzer") (by decide) rfl
  have htake (more : List Bytes) : (front ++ word "rust-analyzer" :: more).take 5 =
      front ++ [word "rust-analyzer"] := rfl
  exact ⟨hs, hnames, hflags, hothers _ ((htake _).trans (htake _).symm), hagain⟩

end WorkerLink.Arguments
