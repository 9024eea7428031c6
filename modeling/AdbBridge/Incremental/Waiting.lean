import AdbBridge.Lib.Rescan
import AdbBridge.Types.CLibrary

/-!
# Waiting for an incremental installation

`wait_for_installation` reads what the child process prints and looks after each read at all it
has read: if there is a `Success` in it the installation has succeeded, else if there is a
`Failure [` whose message is complete, or there are many bytes already, it has failed. A success
is looked for first. So a `Success` behind the message of a failure is found or not, depending on
whether the end of the message and the `Success` come with the same read. This is the only way in
which the reads matter (`AdbBridge.waitForInstallation_same_iff`).
-/

namespace AdbBridge

open Rescan Option

/-- `Result`. -/
inductive InstallResult
  | success
  | failure
  | none
  deriving DecidableEq

/-- `CHUNK_SIZE`. The buffer always has room for that many bytes more. -/
def CHUNK_SIZE : ℕ := 64 * 1024

/-- `maxMessageSize`. -/
def maxMessageSize : ℕ := 256

/-- `failure_msg_head`. -/
def failureMsgHead : Bytes := ascii "Failure ["

/-- The failure that is looked for in what has been read. -/
def hasFailed (s : Bytes) : Bool :=
  match find s failureMsgHead with
  | none => false
  | some start =>
    maxMessageSize ≤ s.length ||
      match rfind s 93 with
      | none => false
      | some stop => start + failureMsgHead.length ≤ stop

/-- The body of the loop, for what has been read: the result that is returned, if there is one. -/
def installVerdict (s : Bytes) : Option InstallResult :=
  if (find s (ascii "Success")).isSome then some .success
  else if hasFailed s then some .failure
  else none

/-- `wait_for_installation`, for what the calls of `adb_read` return before the one that returns
0 or an error. -/
def waitForInstallation (reads : List Bytes) : InstallResult :=
  (rescan installVerdict [] reads).getD .none

/-! ### A longer output -/

variable {s output : Bytes} {r : InstallResult}

/-- A failure that has been found is still there when more comes in. -/
theorem hasFailed_append (h : hasFailed s) (t : Bytes) : hasFailed (s ++ t) := by
  unfold hasFailed at h ⊢
  cases hstart : find s failureMsgHead with
  | none => simp [hstart] at h
  | some start =>
    obtain ⟨start', hle, hstart'⟩ := find_append_le hstart t
    simp only [hstart, hstart', Bool.or_eq_true, decide_eq_true_eq] at h ⊢
    rcases h with hlong | hstop
    · exact Or.inl (by rw [List.length_append]; omega)
    · cases hlast : rfind s 93 with
      | none => simp [hlast] at hstop
      | some stop =>
        obtain ⟨stop', hle', hlast'⟩ := rfind_append_le hlast t
        rw [hlast, decide_eq_true_eq] at hstop
        rw [hlast', decide_eq_true_eq]
        exact Or.inr (by omega)

theorem installVerdict_eq_success_iff (s : Bytes) :
    installVerdict s = some .success ↔ (find s (ascii "Success")).isSome := by
  unfold installVerdict
  split_ifs with hsuccess hfailed <;> simp [hsuccess]

/-- A success stays one. -/
theorem installVerdict_success_append (h : installVerdict s = some .success)
    (t : Bytes) : installVerdict (s ++ t) = some .success := by
  rw [installVerdict_eq_success_iff] at h ⊢
  obtain ⟨i, hi⟩ := isSome_iff_exists.mp h
  obtain ⟨j, -, hj⟩ := find_append_le hi t
  exact isSome_iff_exists.mpr ⟨j, hj⟩

theorem installVerdict_eq_none_iff (s : Bytes) :
    installVerdict s = none ↔ find s (ascii "Success") = none ∧ hasFailed s = false := by
  unfold installVerdict
  split_ifs with hsuccess hfailed
  · simp [isSome_iff_ne_none.mp hsuccess]
  · simp [hfailed]
  · simpa using ⟨by simpa using hsuccess, by simpa using hfailed⟩

theorem installVerdict_persists : Persists installVerdict := by
  intro s t h
  rw [installVerdict_eq_none_iff] at h ⊢
  obtain ⟨hsuccess, hfailed⟩ := h
  constructor
  · refine eq_none_iff_forall_ne_some.mpr fun i hi => ?_
    obtain ⟨j, -, hj⟩ := find_append_le hi t
    exact nomatch hsuccess.symm.trans hj
  · refine Bool.eq_false_iff.mpr fun hs => ?_
    exact Bool.eq_false_iff.mp hfailed (hasFailed_append hs t)

theorem installVerdict_cases (h : installVerdict s = some r) : r = .success ∨ r = .failure := by
  unfold installVerdict at h
  split_ifs at h
  · exact Or.inl (some.inj h).symm
  · exact Or.inr (some.inj h).symm

/-! ### Two results for one output -/

/-- **A failure in front of a success**: the first `a` bytes are without a result, the first `f` a
failure, and the first `b` a success, and a single read can lead from `a` to `b`. -/
def FailureBeforeSuccess (output : Bytes) : Prop :=
  ∃ a f b, a < f ∧ f < b ∧ b ≤ a + CHUNK_SIZE ∧ b ≤ output.length ∧
    installVerdict (output.take a) = none ∧ installVerdict (output.take f) = some .failure ∧
    installVerdict (output.take b) = some .success

/-- The results that there are for some reads. -/
theorem exists_waitForInstallation {reads : List Bytes}
    (hreads : Pieces CHUNK_SIZE output reads) (h : rescan installVerdict [] reads = some r) :
    ∃ a b, Window installVerdict CHUNK_SIZE output a b ∧ installVerdict (output.take b) = some r :=
  (exists_rescan_iff installVerdict_persists rfl).mp ⟨reads, hreads, h⟩

/-- If two ways of reading one output disagree, the failure stands before the success in it. -/
theorem failureBeforeSuccess_of_reads {reads reads' : List Bytes}
    (h : Pieces CHUNK_SIZE output reads) (h' : Pieces CHUNK_SIZE output reads')
    (hsuccess : rescan installVerdict [] reads = some .success)
    (hfailure : rescan installVerdict [] reads' = some .failure) : FailureBeforeSuccess output := by
  obtain ⟨a, b, hwindow, hb⟩ := exists_waitForInstallation h hsuccess
  obtain ⟨-, f, -, hf⟩ := exists_waitForInstallation h' hfailure
  refine ⟨a, f, b, ?_, ?_, hwindow.le, hwindow.le_length, hwindow.undecided, hf, hb⟩
  · by_contra hle
    have hnone := installVerdict_persists.take (not_lt.mp hle) hwindow.undecided
    exact nomatch hf.symm.trans hnone
  · by_contra hle
    have hsame := installVerdict_success_append hb ((output.take f).drop b)
    rw [take_append_between output (not_lt.mp hle), hf] at hsame
    exact nomatch hsame

/-- **When the result does not depend on the reads**: there is no failure in front of a
success. -/
theorem waitForInstallation_same_iff (output : Bytes) :
    (∀ reads reads', Pieces CHUNK_SIZE output reads → Pieces CHUNK_SIZE output reads' →
      waitForInstallation reads = waitForInstallation reads') ↔ ¬FailureBeforeSuccess output := by
  constructor
  · rintro hsame ⟨a, f, b, haf, hfb, hle, hlength, hnone, hfailure, hsuccess⟩
    have hto : ∀ k r, a < k → k ≤ b → installVerdict (output.take k) = some r →
        ∃ reads, Pieces CHUNK_SIZE output reads ∧ rescan installVerdict [] reads = some r :=
      fun k r hlt hk hr => (exists_rescan_iff installVerdict_persists rfl).mpr
        ⟨a, k, ⟨hlt, by omega, by omega, hnone⟩, hr⟩
    obtain ⟨reads, hreads, hfailure⟩ := hto f _ haf hfb.le hfailure
    obtain ⟨reads', hreads', hsuccess⟩ := hto b _ (haf.trans hfb) le_rfl hsuccess
    have heq := hsame reads reads' hreads hreads'
    rw [waitForInstallation, waitForInstallation, hfailure, hsuccess] at heq
    exact nomatch heq
  · intro hnot reads reads' hreads hreads'
    rw [waitForInstallation, waitForInstallation]
    congr 1
    have hnone : rescan installVerdict [] reads = none ↔ rescan installVerdict [] reads' = none :=
      (rescan_eq_none_iff installVerdict_persists rfl hreads).trans
        (rescan_eq_none_iff installVerdict_persists rfl hreads').symm
    cases hr : rescan installVerdict [] reads with
    | none => exact (hnone.mp hr).symm
    | some r =>
      cases hr' : rescan installVerdict [] reads' with
      | none => exact hr.symm.trans (hnone.mpr hr')
      | some r' =>
        obtain ⟨-, b, -, hb⟩ := exists_waitForInstallation hreads hr
        obtain ⟨-, b', -, hb'⟩ := exists_waitForInstallation hreads' hr'
        rcases installVerdict_cases hb with rfl | rfl <;>
          rcases installVerdict_cases hb' with rfl | rfl
        · rfl
        · exact absurd (failureBeforeSuccess_of_reads hreads hreads' hr hr') hnot
        · exact absurd (failureBeforeSuccess_of_reads hreads' hreads hr' hr) hnot
        · rfl

/-- **The message of a failure, and then a success**: read at once it is a success, read in two
pieces a failure. -/
theorem waitForInstallation_differs :
    Pieces CHUNK_SIZE (ascii "Failure [x]\nSuccess") [ascii "Failure [x]\nSuccess"] ∧
      Pieces CHUNK_SIZE (ascii "Failure [x]\nSuccess") [ascii "Failure [x]\n", ascii "Success"] ∧
      waitForInstallation [ascii "Failure [x]\nSuccess"] = .success ∧
      waitForInstallation [ascii "Failure [x]\n", ascii "Success"] = .failure :=
  ⟨⟨by decide, by decide, by decide⟩, ⟨by decide, by decide, by decide⟩, by decide, by decide⟩

end AdbBridge
