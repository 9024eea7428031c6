import AdbBridge.Types.Bytes

/-!
# The arguments of an incremental installation

`adb install` and `adb install-multiple` take the options that choose the mode out of their
arguments and hand the others to `install_app_incremental`. That goes over them once and makes
two things of them: the files are all arguments from the first to the last that ends in `.apk`, and
what is passed through is every argument that neither ends in `.apk` nor begins with `install`.
The two agree with each other just when the files stand together and no argument besides the
command begins with `install` (`AdbBridge.installAppIncremental_parts_iff`).
-/

namespace AdbBridge

open List

/-! ### The options that choose the mode -/

inductive InstallMode
  | default
  | push
  | stream
  | incremental
  deriving DecidableEq

inductive CmdlineOption
  | none
  | enable
  | disable
  deriving DecidableEq

inductive AgentUpdateStrategy
  | always
  | newerTimeStamp
  | differentVersion
  deriving DecidableEq

/-- What `parse_install_mode` returns through its pointers and as its result. -/
structure ParsedMode where
  installMode : InstallMode
  incrementalRequest : CmdlineOption
  incrementalWait : Bool
  passthrough : List Bytes

/-- One round of the loop of `parse_install_mode`. -/
def parseInstallModeArg (p : ParsedMode) (arg : Bytes) : ParsedMode :=
  if arg = ascii "--streaming" then { p with installMode := .stream }
  else if arg = ascii "--no-streaming" then { p with installMode := .push }
  else if 6 ≤ arg.length ∧ startsWith (ascii "--incremental") arg then
    { p with incrementalRequest := .enable }
  else if 9 ≤ arg.length ∧ startsWith (ascii "--no-incremental") arg then
    { p with incrementalRequest := .disable }
  else if arg = ascii "--wait" then { p with incrementalWait := true }
  else { p with passthrough := p.passthrough ++ [arg] }

/-- `parse_install_mode`. -/
def parseInstallMode (argv : List Bytes) : ParsedMode :=
  argv.foldl parseInstallModeArg ⟨.default, .none, false, []⟩

/-- What `parse_fast_deploy_mode` returns. -/
structure ParsedFastDeploy where
  useFastdeploy : Bool
  agentUpdateStrategy : AgentUpdateStrategy
  passthrough : List Bytes

/-- One round of the loop of `parse_fast_deploy_mode`. -/
def parseFastDeployArg (p : ParsedFastDeploy) (arg : Bytes) : ParsedFastDeploy :=
  if arg = ascii "--fastdeploy" then { p with useFastdeploy := true }
  else if arg = ascii "--no-fastdeploy" then { p with useFastdeploy := false }
  else if arg = ascii "--force-agent" then { p with agentUpdateStrategy := .always }
  else if arg = ascii "--date-check-agent" then { p with agentUpdateStrategy := .newerTimeStamp }
  else if arg = ascii "--version-check-agent" then
    { p with agentUpdateStrategy := .differentVersion }
  else { p with passthrough := p.passthrough ++ [arg] }

/-- `parse_fast_deploy_mode`. -/
def parseFastDeployMode (argv : List Bytes) : ParsedFastDeploy :=
  argv.foldl parseFastDeployArg ⟨false, .differentVersion, []⟩

/-- Which of the two commands it is. -/
inductive InstallCommand
  | install
  | installMultiple
  deriving DecidableEq

/-- The `passthrough_argv` of `install_app` and of `install_multiple_app`, for the arguments after
the command: only `install_app` keeps the command itself, and it alone knows the options of fast
deployment. -/
def InstallCommand.passthroughArgv (command : InstallCommand) (args : List Bytes) : List Bytes :=
  match command with
  | .install =>
    (parseFastDeployMode (parseInstallMode (ascii "install" :: args)).passthrough).passthrough
  | .installMultiple => (parseInstallMode args).passthrough

/-! ### The two passes over the arguments -/

/-- `tolower` of a byte. -/
def toLower (b : UInt8) : UInt8 := if 65 ≤ b ∧ b ≤ 90 then b + 32 else b

/-- `android::base::EndsWithIgnoreCase`. -/
def endsWithIgnoreCase (s suffix : Bytes) : Bool :=
  suffix.length ≤ s.length &&
    (s.drop (s.length - suffix.length)).map toLower == suffix.map toLower

/-- An argument that is taken for a file. -/
def isApk (arg : Bytes) : Bool := endsWithIgnoreCase arg (ascii ".apk")

/-- The variables of the loop of `install_app_incremental`; an index that is still −1 is
`none`. -/
structure ApkScan where
  firstApk : Option ℕ
  lastApk : Option ℕ
  passthroughArgs : List Bytes

/-- One round of the loop, at index `i`. -/
def ApkScan.next (s : ApkScan) (i : ℕ) (arg : Bytes) : ApkScan :=
  if isApk arg then { s with firstApk := s.firstApk.orElse fun _ => some i, lastApk := some i }
  else if startsWith arg (ascii "install") then s
  else { s with passthroughArgs := s.passthroughArgs ++ [arg] }

/-- The loop, from index `i` on. -/
def scanApks (s : ApkScan) (i : ℕ) : List Bytes → ApkScan
  | [] => s
  | arg :: argv => scanApks (s.next i arg) (i + 1) argv

/-- The arguments of the call of `incremental::install`. -/
structure IncrementalCall where
  files : List Bytes
  passthroughArgs : List Bytes
  silent : Bool
  deriving DecidableEq

/-- `install_app_incremental`, up to its call of `incremental::install`: it returns without one if
there is no file, and if it is to be silent and `can_install` refuses the files. -/
def installAppIncremental (canInstall : List Bytes → Bool) (silent : Bool) (argv : List Bytes) :
    Option IncrementalCall :=
  let s := scanApks ⟨none, none, []⟩ 0 argv
  match s.firstApk, s.lastApk with
  | some first, some last =>
    let files := (argv.take (last + 1)).drop first
    if silent && !canInstall files then none else some ⟨files, s.passthroughArgs, silent⟩
  | _, _ => none

/-! ### What the options leave -/

/-- The options of `parse_install_mode`. -/
def isModeOption (arg : Bytes) : Bool :=
  arg = ascii "--streaming" ∨ arg = ascii "--no-streaming" ∨
    (6 ≤ arg.length ∧ startsWith (ascii "--incremental") arg) ∨
    (9 ≤ arg.length ∧ startsWith (ascii "--no-incremental") arg) ∨ arg = ascii "--wait"

/-- The options of `parse_fast_deploy_mode`. -/
def isFastDeployOption (arg : Bytes) : Bool :=
  arg = ascii "--fastdeploy" ∨ arg = ascii "--no-fastdeploy" ∨ arg = ascii "--force-agent" ∨
    arg = ascii "--date-check-agent" ∨ arg = ascii "--version-check-agent"

/-- The options that a command takes out. -/
def InstallCommand.isOption : InstallCommand → Bytes → Bool
  | .install, arg => isModeOption arg || isFastDeployOption arg
  | .installMultiple, arg => isModeOption arg

/-- The command itself, as far as it is one of the arguments of `install_app_incremental`. -/
def InstallCommand.word : InstallCommand → List Bytes
  | .install => [ascii "install"]
  | .installMultiple => []

/-- The arguments without the options that choose the mode. -/
def InstallCommand.others (command : InstallCommand) (args : List Bytes) : List Bytes :=
  args.filter (!command.isOption ·)

/-- A loop that either takes an argument out or appends it to a list. -/
theorem foldl_passthrough {σ : Type*} {next : σ → Bytes → σ} {passthrough : σ → List Bytes}
    {isOption : Bytes → Bool}
    (h : ∀ s arg, passthrough (next s arg) = passthrough s ++ [arg].filter (!isOption ·))
    (argv : List Bytes) (s : σ) :
    passthrough (argv.foldl next s) = passthrough s ++ argv.filter (!isOption ·) := by
  induction argv generalizing s with
  | nil => exact (append_nil _).symm
  | cons arg argv ih =>
    rw [foldl_cons, ih, h, append_assoc, ← filter_append, singleton_append]

theorem parseInstallMode_passthrough (argv : List Bytes) :
    (parseInstallMode argv).passthrough = argv.filter (!isModeOption ·) := by
  refine foldl_passthrough (fun p arg => ?_) argv _
  rw [filter_singleton, parseInstallModeArg, isModeOption]
  split_ifs with hstream hpush henable hdisable hwait
  · simp [hstream]
  · simp [hpush]
  · simp [henable]
  · simp [hdisable]
  · simp [hwait]
  · simp only [hstream, hpush, henable, hdisable, hwait, or_self, decide_false, Bool.not_false,
      cond_true]

theorem parseFastDeployMode_passthrough (argv : List Bytes) :
    (parseFastDeployMode argv).passthrough = argv.filter (!isFastDeployOption ·) := by
  refine foldl_passthrough (fun p arg => ?_) argv _
  rw [filter_singleton, parseFastDeployArg, isFastDeployOption]
  split_ifs with hfast hno hforce hdate hversion
  · simp [hfast]
  · simp [hno]
  · simp [hforce]
  · simp [hdate]
  · simp [hversion]
  · simp only [hfast, hno, hforce, hdate, hversion, or_self, decide_false, Bool.not_false,
      cond_true]

theorem InstallCommand.passthroughArgv_eq (command : InstallCommand) (args : List Bytes) :
    command.passthroughArgv args = command.word ++ command.others args := by
  cases command with
  | install =>
    have hword : isModeOption (ascii "install") = false ∧
        isFastDeployOption (ascii "install") = false := by decide
    rw [passthroughArgv, parseFastDeployMode_passthrough, parseInstallMode_passthrough,
      filter_filter, others, word]
    simp [isOption, hword, Bool.and_comm]
  | installMultiple => exact parseInstallMode_passthrough args

variable {a arg : Bytes} {s : ApkScan} {i first : ℕ} {argv front back : List Bytes}

/-- The name of a file has a dot in it. -/
theorem dot_mem_of_isApk (h : isApk arg) : 46 ∈ arg := by
  obtain ⟨-, htail⟩ := Bool.and_eq_true_iff.mp h
  have hdot : (46 : UInt8) ∈ (arg.drop (arg.length - (ascii ".apk").length)).map toLower := by
    rw [eq_of_beq htail]
    decide
  obtain ⟨b, hb, hlower⟩ := mem_map.mp hdot
  have hb46 : b = 46 := by
    unfold toLower at hlower
    split_ifs at hlower with hrange
    · rw [eq_sub_of_add_eq hlower] at hrange
      exact absurd hrange (by decide)
    · exact hlower
  exact mem_of_mem_drop (hb46 ▸ hb)

/-- No command takes a file for an option. -/
theorem isOption_of_isApk (command : InstallCommand) (h : isApk arg) :
    command.isOption arg = false := by
  have hdot := dot_mem_of_isApk h
  have hne : ∀ option : Bytes, 46 ∉ option → arg ≠ option := by
    rintro option hnot rfl
    exact hnot hdot
  have hbegins : ∀ option : Bytes, 46 ∉ option → startsWith option arg = false := by
    intro option hnot
    refine Bool.eq_false_iff.mpr fun hstarts => hnot ?_
    exact (List.isPrefixOf_iff_prefix.mp hstarts).subset hdot
  have hmode : isModeOption arg = false := by
    simp [isModeOption, hne _ (by decide : 46 ∉ ascii "--streaming"),
      hne _ (by decide : 46 ∉ ascii "--no-streaming"), hne _ (by decide : 46 ∉ ascii "--wait"),
      hbegins _ (by decide : 46 ∉ ascii "--incremental"),
      hbegins _ (by decide : 46 ∉ ascii "--no-incremental")]
  have hfast : isFastDeployOption arg = false := by
    simp [isFastDeployOption, hne _ (by decide : 46 ∉ ascii "--fastdeploy"),
      hne _ (by decide : 46 ∉ ascii "--no-fastdeploy"),
      hne _ (by decide : 46 ∉ ascii "--force-agent"),
      hne _ (by decide : 46 ∉ ascii "--date-check-agent"),
      hne _ (by decide : 46 ∉ ascii "--version-check-agent")]
  cases command with
  | install => rw [InstallCommand.isOption, hmode, hfast, Bool.or_false]
  | installMultiple => exact hmode

/-! ### What the loop finds -/

/-- The arguments that are passed through. -/
def isPassthrough (arg : Bytes) : Bool := !isApk arg && !startsWith arg (ascii "install")

theorem ApkScan.next_passthroughArgs (s : ApkScan) (i : ℕ) (arg : Bytes) :
    (s.next i arg).passthroughArgs = s.passthroughArgs ++ [arg].filter isPassthrough := by
  rw [filter_singleton, next, isPassthrough]
  split_ifs with hapk hcommand
  · simp [hapk]
  · simp [hcommand]
  · simp [hapk, hcommand]

theorem ApkScan.next_indices_of_not (harg : ¬isApk arg) (s : ApkScan) (i : ℕ) :
    (s.next i arg).firstApk = s.firstApk ∧ (s.next i arg).lastApk = s.lastApk := by
  rw [next, if_neg harg]
  split_ifs <;> exact ⟨rfl, rfl⟩

theorem ApkScan.next_firstApk_of_some (h : s.firstApk = some first)
    (i : ℕ) (arg : Bytes) : (s.next i arg).firstApk = some first := by
  unfold next
  split_ifs <;> simp [h]

theorem scanApks_append (s : ApkScan) (i : ℕ) (xs ys : List Bytes) :
    scanApks s i (xs ++ ys) = scanApks (scanApks s i xs) (i + xs.length) ys := by
  induction xs generalizing s i with
  | nil => rfl
  | cons arg xs ih =>
    rw [cons_append, scanApks, scanApks, ih, length_cons, Nat.add_assoc,
      Nat.add_comm 1]

theorem scanApks_passthroughArgs (s : ApkScan) (i : ℕ) (argv : List Bytes) :
    (scanApks s i argv).passthroughArgs = s.passthroughArgs ++ argv.filter isPassthrough := by
  induction argv generalizing s i with
  | nil => exact (append_nil _).symm
  | cons arg argv ih =>
    rw [scanApks, ih, ApkScan.next_passthroughArgs, append_assoc, ← filter_append,
      singleton_append]

theorem scanApks_indices_of_not (h : ∀ a ∈ argv, ¬isApk a) (s : ApkScan) (i : ℕ) :
    (scanApks s i argv).firstApk = s.firstApk ∧ (scanApks s i argv).lastApk = s.lastApk := by
  induction argv generalizing s i with
  | nil => exact ⟨rfl, rfl⟩
  | cons arg argv ih =>
    obtain ⟨harg, hargv⟩ := forall_mem_cons.mp h
    obtain ⟨hfirst, hlast⟩ := ih hargv (s.next i arg) (i + 1)
    obtain ⟨hfirst', hlast'⟩ := ApkScan.next_indices_of_not harg s i
    exact ⟨hfirst.trans hfirst', hlast.trans hlast'⟩

theorem scanApks_firstApk_of_some (h : s.firstApk = some first) (i : ℕ)
    (argv : List Bytes) : (scanApks s i argv).firstApk = some first := by
  induction argv generalizing s i with
  | nil => exact h
  | cons arg argv ih => exact ih (ApkScan.next_firstApk_of_some h i arg) (i + 1)

/-- The first file. -/
theorem scanApks_firstApk (hfront : ∀ x ∈ front, ¬isApk x) (ha : isApk a) :
    (scanApks ⟨none, none, []⟩ 0 (front ++ a :: back)).firstApk = some front.length := by
  rw [scanApks_append, scanApks, Nat.zero_add]
  refine scanApks_firstApk_of_some ?_ _ _
  rw [ApkScan.next, if_pos ha, (scanApks_indices_of_not hfront _ 0).1]
  rfl

/-- The last file. -/
theorem scanApks_lastApk (ha : isApk a) (hback : ∀ x ∈ back, ¬isApk x) :
    (scanApks ⟨none, none, []⟩ 0 (front ++ a :: back)).lastApk = some front.length := by
  rw [scanApks_append, scanApks, Nat.zero_add, (scanApks_indices_of_not hback _ _).2,
    ApkScan.next, if_pos ha]

/-- Among the arguments there is a first and a last file. -/
theorem exists_first_apk (h : ∃ a ∈ argv, isApk a) :
    ∃ front a back, argv = front ++ a :: back ∧ isApk a ∧ ∀ x ∈ front, ¬isApk x := by
  obtain ⟨a, ha⟩ := Option.isSome_iff_exists.mp (List.find?_isSome.mpr h)
  obtain ⟨hapk, front, back, hsplit, hfront⟩ := List.find?_eq_some_iff_append.mp ha
  exact ⟨front, a, back, hsplit, hapk, fun x hx => by simpa using hfront x hx⟩

theorem exists_last_apk (h : ∃ a ∈ argv, isApk a) :
    ∃ front a back, argv = front ++ a :: back ∧ isApk a ∧ ∀ x ∈ back, ¬isApk x := by
  obtain ⟨a, ha, hapk⟩ := h
  obtain ⟨front, b, back, hsplit, hb, hfront⟩ :=
    exists_first_apk ⟨a, mem_reverse.mpr ha, hapk⟩
  refine ⟨back.reverse, b, front.reverse, ?_, hb, fun x hx => hfront x (mem_reverse.mp hx)⟩
  rw [← reverse_reverse argv, hsplit, reverse_append, reverse_cons,
    append_assoc, singleton_append]

/-! ### Files that stand together -/

/-- There is a file at this index. -/
def apkAt (argv : List Bytes) (i : ℕ) : Bool := argv[i]?.any isApk

/-- **The files stand together**: what has a file before it and a file behind it is a file. -/
def FilesTogether (argv : List Bytes) : Prop :=
  ∀ k < argv.length, ∀ j < k, ∀ i < j, apkAt argv i → apkAt argv k → apkAt argv j

instance decidableFilesTogether (argv : List Bytes) : Decidable (FilesTogether argv) :=
  inferInstanceAs (Decidable (∀ k < argv.length, ∀ j < k, ∀ i < j, apkAt argv i → apkAt argv k →
    apkAt argv j))

/-- The arguments from one index to another. -/
def argRange (argv : List Bytes) (first last : ℕ) : List Bytes := (argv.take (last + 1)).drop first

/-- The first and the last index of a file. -/
structure ApkRange (argv : List Bytes) (first last : ℕ) : Prop where
  apkAt_first : apkAt argv first
  apkAt_last : apkAt argv last
  first_le : ∀ k, apkAt argv k → first ≤ k
  le_last : ∀ k, apkAt argv k → k ≤ last

theorem apkAt_iff : apkAt argv i ↔ ∃ a, argv[i]? = some a ∧ isApk a := by
  rw [apkAt, Option.any_eq_true]

theorem apkAt_of_getElem? (h : argv[i]? = some a) (ha : isApk a) : apkAt argv i :=
  apkAt_iff.mpr ⟨a, h, ha⟩

theorem lt_length_of_apkAt (h : apkAt argv i) : i < argv.length := by
  obtain ⟨a, ha, -⟩ := apkAt_iff.mp h
  exact (List.getElem?_eq_some_iff.mp ha).1

/-- The first and the last index, where nothing before the one and behind the other is a file. -/
theorem apkRange_of_split {front' back' : List Bytes} {b : Bytes}
    (hfirst : argv = front ++ a :: back) (ha : isApk a) (hfront : ∀ x ∈ front, ¬isApk x)
    (hlast : argv = front' ++ b :: back') (hb : isApk b) (hback : ∀ x ∈ back', ¬isApk x) :
    ApkRange argv front.length front'.length where
  apkAt_first := apkAt_of_getElem? (by simp [hfirst]) ha
  apkAt_last := apkAt_of_getElem? (by simp [hlast]) hb
  first_le k hk := by
    obtain ⟨c, hc, hapk⟩ := apkAt_iff.mp hk
    by_contra hlt
    rw [hfirst, List.getElem?_append_left (by omega)] at hc
    exact hfront c (mem_of_getElem? hc) hapk
  le_last k hk := by
    obtain ⟨c, hc, hapk⟩ := apkAt_iff.mp hk
    by_contra hlt
    obtain ⟨n, rfl⟩ : ∃ n, k = front'.length + (n + 1) := ⟨k - front'.length - 1, by omega⟩
    rw [hlast, List.getElem?_append_right (by omega), Nat.add_sub_cancel_left,
      List.getElem?_cons_succ] at hc
    exact hback c (mem_of_getElem? hc) hapk

section

variable {argv : List Bytes} {first last : ℕ} (h : ApkRange argv first last)

include h

theorem ApkRange.first_le_last : first ≤ last := h.first_le last h.apkAt_last

theorem ApkRange.split :
    argv = argv.take first ++ argRange argv first last ++ argv.drop (last + 1) := by
  have hle := h.first_le_last
  have htake : argv.take first = (argv.take (last + 1)).take first := by
    rw [take_take, Nat.min_eq_left (by omega)]
  rw [argRange, htake, take_append_drop, take_append_drop]

/-- All files are in the range. -/
theorem ApkRange.filter_argRange : argv.filter isApk = (argRange argv first last).filter isApk := by
  have hbefore : (argv.take first).filter isApk = [] := by
    refine filter_eq_nil_iff.mpr fun x hx hapk => ?_
    obtain ⟨i, hi⟩ := mem_iff_getElem?.mp hx
    have hlt : i < first := by
      by_contra hnot
      rw [List.getElem?_take_eq_none (by omega)] at hi
      exact nomatch hi
    rw [List.getElem?_take_of_lt hlt] at hi
    exact absurd (h.first_le i (apkAt_of_getElem? hi hapk)) (by omega)
  have hbehind : (argv.drop (last + 1)).filter isApk = [] := by
    refine filter_eq_nil_iff.mpr fun x hx hapk => ?_
    obtain ⟨i, hi⟩ := mem_iff_getElem?.mp hx
    rw [List.getElem?_drop] at hi
    exact absurd (h.le_last _ (apkAt_of_getElem? hi hapk)) (by omega)
  conv_lhs => rw [h.split]
  rw [filter_append, filter_append, hbefore, hbehind, nil_append, append_nil]

/-- What lies between the first and the last file is all files exactly if they stand together. -/
theorem ApkRange.argRange_eq_filter_iff :
    argRange argv first last = argv.filter isApk ↔ FilesTogether argv := by
  have hget : ∀ j, (argRange argv first last)[j]? =
      if first + j ≤ last then argv[first + j]? else none := by
    intro j
    rw [argRange, List.getElem?_drop, List.getElem?_take]
    simp only [Nat.lt_succ_iff]
  rw [h.filter_argRange, eq_comm, filter_eq_self]
  constructor
  · intro hall k hk j hjk i hij hi hkapk
    have hfirst := h.first_le i hi
    have hlast := h.le_last k hkapk
    have hj : argv[j]? = some argv[j] := List.getElem?_eq_getElem (by omega)
    refine apkAt_of_getElem? hj (hall _ (mem_iff_getElem?.mpr ⟨j - first, ?_⟩))
    rw [hget, if_pos (by omega), Nat.add_sub_cancel' (by omega), hj]
  · intro htogether x hx
    obtain ⟨j, hj⟩ := mem_iff_getElem?.mp hx
    rw [hget] at hj
    have hle : first + j ≤ last := by
      by_contra hlt
      rw [if_neg hlt] at hj
      exact nomatch hj
    rw [if_pos hle] at hj
    suffices happ : apkAt argv (first + j) by
      obtain ⟨a, ha, hapk⟩ := apkAt_iff.mp happ
      exact Option.some.inj (hj.symm.trans ha) ▸ hapk
    rcases Nat.eq_zero_or_pos j with rfl | hpos
    · exact h.apkAt_first
    · rcases hle.eq_or_lt with hend | hlt
      · exact hend ▸ h.apkAt_last
      · exact htogether last (lt_length_of_apkAt h.apkAt_last) _ hlt first (by omega) h.apkAt_first
          h.apkAt_last

end

/-! ### The call -/

theorem InstallCommand.word_not_apk (command : InstallCommand) : ∀ a ∈ command.word, ¬isApk a := by
  cases command <;> decide

theorem InstallCommand.word_not_passthrough (command : InstallCommand) :
    command.word.filter isPassthrough = [] := by
  cases command <;> decide

/-- The call in terms of the arguments without the command. -/
theorem exists_installAppIncremental (command : InstallCommand) {rest : List Bytes}
    (hapk : ∃ a ∈ rest, isApk a) :
    ∃ first last, ApkRange rest first last ∧ ∀ canInstall silent,
      installAppIncremental canInstall silent (command.word ++ rest) =
        if silent && !canInstall (argRange rest first last) then none
        else some ⟨argRange rest first last, rest.filter isPassthrough, silent⟩ := by
  obtain ⟨front, a, back, hfirst, ha, hfront⟩ := exists_first_apk hapk
  obtain ⟨front', b, back', hlast, hb, hback⟩ := exists_last_apk hapk
  refine ⟨_, _, apkRange_of_split hfirst ha hfront hlast hb hback, fun canInstall silent => ?_⟩
  have hword : (scanApks ⟨none, none, []⟩ 0 (command.word ++ rest)).firstApk =
      some (command.word.length + front.length) := by
    rw [hfirst, ← append_assoc, ← length_append]
    exact scanApks_firstApk (forall_mem_append.mpr ⟨command.word_not_apk, hfront⟩) ha
  have hword' : (scanApks ⟨none, none, []⟩ 0 (command.word ++ rest)).lastApk =
      some (command.word.length + front'.length) := by
    rw [hlast, ← append_assoc, ← length_append]
    exact scanApks_lastApk hb hback
  have hfiles : ((command.word ++ rest).take (command.word.length + front'.length + 1)).drop
      (command.word.length + front.length) = argRange rest front.length front'.length := by
    rw [Nat.add_assoc, take_length_add_append, drop_length_add_append, argRange]
  have hpass : (scanApks ⟨none, none, []⟩ 0 (command.word ++ rest)).passthroughArgs =
      rest.filter isPassthrough := by
    rw [scanApks_passthroughArgs, nil_append, filter_append,
      command.word_not_passthrough, nil_append]
  simp only [installAppIncremental, hword, hword', hfiles, hpass]

/-- What is passed through is everything but the files, if nothing else is taken for the
command. -/
theorem filter_isPassthrough_iff (rest : List Bytes) :
    rest.filter isPassthrough = rest.filter (!isApk ·) ↔
      ∀ a ∈ rest, ¬isApk a → ¬startsWith a (ascii "install") := by
  constructor
  · intro heq a ha hapk
    have hmem : a ∈ rest.filter isPassthrough := by
      rw [heq]
      exact mem_filter.mpr ⟨ha, by simpa using hapk⟩
    have hpass := of_mem_filter hmem
    rw [isPassthrough, Bool.and_eq_true_iff, Bool.not_eq_true'] at hpass
    simpa using hpass.2
  · intro h
    refine filter_congr fun a ha => ?_
    by_cases hapk : isApk a
    · simp [isPassthrough, hapk]
    · simp [isPassthrough, hapk, h a ha hapk]

/-- **When the arguments are partitioned**: `incremental::install` gets the files and all other
arguments but the command, each in their order, just when the files stand together and no
argument that is not a file begins with `install`. -/
theorem installAppIncremental_parts_iff (command : InstallCommand) (args : List Bytes)
    (hapk : ∃ a ∈ args, isApk a) :
    (∀ canInstall silent,
      installAppIncremental canInstall silent (command.passthroughArgv args) =
        if silent && !canInstall ((command.others args).filter isApk) then none
        else some ⟨(command.others args).filter isApk, (command.others args).filter (!isApk ·),
          silent⟩) ↔
      FilesTogether (command.others args) ∧
        ∀ a ∈ command.others args, ¬isApk a → ¬startsWith a (ascii "install") := by
  have hrest : ∃ a ∈ command.others args, isApk a := by
    obtain ⟨a, ha, hapk⟩ := hapk
    refine ⟨a, mem_filter.mpr ⟨ha, ?_⟩, hapk⟩
    rw [isOption_of_isApk command hapk]
    rfl
  obtain ⟨first, last, hrange, hcall⟩ := exists_installAppIncremental command hrest
  rw [← hrange.argRange_eq_filter_iff, ← filter_isPassthrough_iff, command.passthroughArgv_eq]
  constructor
  · intro h
    have hsame := (hcall (fun _ => true) false).symm.trans (h (fun _ => true) false)
    injection hsame with hsame
    injection hsame with hfiles hpass _
    exact ⟨hfiles, hpass⟩
  · rintro ⟨hfiles, hpass⟩ canInstall silent
    rw [hcall, hfiles, hpass]

/-- The files of a package and its configurations, with an option and its value. -/
theorem installAppIncremental_parts_iff_split :
    installAppIncremental (fun _ => true) true
        (InstallCommand.install.passthroughArgv
          [ascii "--incremental", ascii "-i", ascii "store", ascii "base.apk", ascii "x86.APK"]) =
      some ⟨[ascii "base.apk", ascii "x86.APK"], [ascii "-i", ascii "store"], true⟩ :=
  (installAppIncremental_parts_iff .install
    [ascii "--incremental", ascii "-i", ascii "store", ascii "base.apk", ascii "x86.APK"]
    (by decide +kernel)).mpr (by decide +kernel) (fun _ => true) true

/-- **An option between two files becomes a file**, and is passed through as well; **the value of
an option that begins with `install` is lost**. -/
theorem installAppIncremental_mixes :
    installAppIncremental (fun _ => true) false
        (InstallCommand.installMultiple.passthroughArgv
          [ascii "a.apk", ascii "-r", ascii "b.apk"]) =
        some ⟨[ascii "a.apk", ascii "-r", ascii "b.apk"], [ascii "-r"], false⟩ ∧
      installAppIncremental (fun _ => true) false
        (InstallCommand.install.passthroughArgv
          [ascii "-i", ascii "installer", ascii "x.apk"]) =
        some ⟨[ascii "x.apk"], [ascii "-i"], false⟩ := by
  decide +kernel

end AdbBridge
