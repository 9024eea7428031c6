import AdbBridge.FileSync.Paths
import AdbBridge.Install.Escape
import AdbBridge.Types.CLibrary

/-!
# Strings in shell commands

Four commands are put together from strings that come from elsewhere and are run by the shell of
the device: the fast deployment of a package dumps it by the name in its manifest, applies a patch
with the arguments of the user, or applies it to a file; and a session writes a file by its name,
where the device does not have `abb_exec`. None of the strings goes through `escape_arg`. So each
of them is one word of its command just when it is a plain word
(`AdbBridge.commands_keep_iff`).
-/

namespace AdbBridge

open List

/-- The command in the name of a `shell:` or `exec:` service. -/
def serviceCommand (service : Bytes) : Bytes := (service.dropWhile (· != 58)).drop 1

/-- The agent on the device. -/
def deployAgent : Bytes := ascii "/data/local/tmp/deployagent"

/-- `kRequiredAgentVersion`. -/
def requiredAgentVersion : ℕ := 3

/-- The command of `extract_metadata`. -/
def dumpCommand (packageName : Bytes) : Bytes :=
  ascii "/data/local/tmp/deployagent dump " ++ decimal requiredAgentVersion ++ ascii " " ++
    cString packageName []

/-- The service of `install_patch`. The arguments are C strings. -/
def installPatchService (args : List Bytes) : Bytes :=
  let argsString := args.flatMap (· ++ ascii " ")
  let argsString := if ascii "-r" ∈ args then argsString else argsString ++ ascii "-r"
  ascii "shell:/data/local/tmp/deployagent apply - -pm " ++ argsString

/-- The service of `apply_patch_on_device`. -/
def applyPatchService (outputPath : Bytes) : Bytes :=
  ascii "shell:/data/local/tmp/deployagent apply - -o " ++ outputPath

/-- The `install_cmd` of a device without `abb_exec`: `push` says that it has no `cmd` either. -/
def installCmd (push : Bool) : Bytes := ascii (if push then "exec:pm" else "exec:cmd package")

/-- The service that `install_multiple_app_streamed` writes a file with, joined by
`send_command`. -/
def installWriteService (push : Bool) (size sessionId : ℕ) (file : Bytes) : Bytes :=
  List.intercalate (ascii " ") [installCmd push, ascii "install-write", ascii "-S", decimal size,
    decimal sessionId, basename file, ascii "-"]

/-! ### The words that are always the same -/

open ShellWords

theorem plain_decimal (n : ℕ) : Plain (decimal n) := by
  have hdigit : ∀ b, isDigit b = true → isOrdinary b = true ∧ isLeading b = false := by
    decide +kernel
  have hbyte (b) (hb : b ∈ decimal n) := hdigit b (isDigit_of_mem_decimal hb)
  exact ⟨decimal_ne_nil n, fun b hb => (hbyte b hb).1,
    fun b hb => (hbyte b (List.mem_of_mem_head? hb)).2⟩

/-- A command of which one word is not fixed. -/
theorem words_around_iff {before after : List Bytes} (hbefore : ∀ w ∈ before, Plain w)
    (hafter : ∀ w ∈ after, Plain w) (v : Bytes) :
    words (List.intercalate [32] (before ++ v :: after)) = some (before ++ v :: after) ↔
      Plain v := by
  rw [words_intercalate_iff]
  constructor
  · exact fun h => h v (by simp)
  · intro hv w hw
    rcases mem_append.mp hw with hw | hw
    · exact hbefore w hw
    · rcases mem_cons.mp hw with rfl | hw
      · exact hv
      · exact hafter w hw

/-! ### The commands -/

/-- The command to dump a package is split as it should be exactly if the name is plain. -/
theorem words_dumpCommand_iff {packageName : Bytes} (h : 0 ∉ packageName) :
    words (dumpCommand packageName) =
        some [deployAgent, ascii "dump", decimal requiredAgentVersion, packageName] ↔
      Plain packageName := by
  have htext : dumpCommand packageName = List.intercalate [32]
      ([deployAgent, ascii "dump", decimal requiredAgentVersion] ++ packageName :: []) := by
    rw [dumpCommand, cString, append_nil, takeWhile_bne_append_cons h]
    simp only [cons_append, nil_append, intercalate_cons_cons,
      intercalate_singleton]
    rfl
  rw [htext]
  exact words_around_iff (by decide) (by decide) packageName

theorem words_applyPatch_iff (outputPath : Bytes) :
    words (serviceCommand (applyPatchService outputPath)) =
        some [deployAgent, ascii "apply", ascii "-", ascii "-o", outputPath] ↔
      Plain outputPath := by
  have htext : serviceCommand (applyPatchService outputPath) = List.intercalate [32]
      ([deployAgent, ascii "apply", ascii "-", ascii "-o"] ++ outputPath :: []) := by
    simp only [cons_append, nil_append, intercalate_cons_cons,
      intercalate_singleton]
    rfl
  rw [htext]
  exact words_around_iff (by decide) (by decide) outputPath

/-- The words of the command of a device without `abb_exec`. -/
def installWords (push : Bool) : List Bytes :=
  if push then [ascii "pm"] else [ascii "cmd", ascii "package"]

/-- The same for `install-write`, and the base name of the file. -/
theorem words_installWrite_iff (push : Bool) (size sessionId : ℕ) (file : Bytes) :
    words (serviceCommand (installWriteService push size sessionId file)) =
        some (installWords push ++ [ascii "install-write", ascii "-S", decimal size,
          decimal sessionId, basename file, ascii "-"]) ↔
      Plain (basename file) := by
  have htext : serviceCommand (installWriteService push size sessionId file) =
      List.intercalate [32] ((installWords push ++ [ascii "install-write", ascii "-S", decimal size,
        decimal sessionId]) ++ basename file :: [ascii "-"]) := by
    cases push <;> rfl
  have hbefore : ∀ w ∈ installWords push ++ [ascii "install-write", ascii "-S", decimal size,
      decimal sessionId], Plain w := by
    have hfixed : ∀ w ∈ installWords push ++ [ascii "install-write", ascii "-S"], Plain w := by
      cases push <;> decide
    intro w hw
    simp only [mem_append, mem_cons, not_mem_nil, or_false] at hw hfixed
    rcases hw with hw | rfl | rfl | rfl | rfl
    · exact hfixed w (Or.inl hw)
    · exact hfixed _ (Or.inr (Or.inl rfl))
    · exact hfixed _ (Or.inr (Or.inr rfl))
    · exact plain_decimal size
    · exact plain_decimal sessionId
  have hiff := words_around_iff hbefore (by decide : ∀ w ∈ [ascii "-"], Plain w) (basename file)
  rw [← htext, append_assoc] at hiff
  exact hiff

/-- The words in front of the arguments of `install_patch`. -/
def patchWords : List Bytes := [deployAgent, ascii "apply", ascii "-", ascii "-pm"]

/-- The same for a patch, and all the arguments of the installation. -/
theorem words_installPatch_iff (args : List Bytes) :
    words (serviceCommand (installPatchService args)) =
        some (patchWords ++ args ++ if ascii "-r" ∈ args then [] else [ascii "-r"]) ↔
      ∀ a ∈ args, Plain a := by
  have hfixed : ∀ w ∈ patchWords, Plain w := by decide
  have hplain : (∀ w ∈ patchWords ++ args, Plain w) ↔ ∀ a ∈ args, Plain a := by
    rw [forall_mem_append]
    exact and_iff_right hfixed
  by_cases hr : ascii "-r" ∈ args
  · -- A blank is left behind the last argument.
    have htext : serviceCommand (installPatchService args) = terminated (patchWords ++ args) := by
      rw [installPatchService, if_pos hr, terminated, flatMap_append]
      rfl
    rw [htext, if_pos hr, append_nil, words_terminated_iff, hplain]
  · have htext : serviceCommand (installPatchService args) =
        terminated (patchWords ++ args) ++ ascii "-r" := by
      rw [installPatchService, if_neg hr, terminated, flatMap_append, append_assoc]
      rfl
    have hlast : Plain (ascii "-r") := by decide
    rw [htext, if_neg hr]
    refine (words_eq_iff ?_ fun h => ?_).trans ?_
    · have hflat : (patchWords ++ args ++ [ascii "-r"]).flatten =
          (patchWords ++ args).flatten ++ ascii "-r" := by
        rw [flatten_append, flatten_singleton]
      rw [hflat, quotes_append, quotes_append, quotes_terminated]
    · exact words_terminated_append (forall₂_reads fun w hw => h w (mem_append_left _ hw))
        hlast.reads
    · rw [forall_mem_append, hplain]
      exact and_iff_left (forall_mem_singleton.mpr hlast)

/-- **Which strings stay whole in the commands**: the plain ones. The package name is one from a
manifest, `args` are those for `pm`, and `outputPath` and `file` are made of the name of an
APK. -/
theorem commands_keep_iff (packageName outputPath file : Bytes) (args : List Bytes) (push : Bool)
    (size sessionId : ℕ) (hname : 0 ∉ packageName) :
    (words (dumpCommand packageName) =
        some [deployAgent, ascii "dump", decimal requiredAgentVersion, packageName] ↔
      Plain packageName) ∧
    (words (serviceCommand (installPatchService args)) =
        some (patchWords ++ args ++ if ascii "-r" ∈ args then [] else [ascii "-r"]) ↔
      ∀ a ∈ args, Plain a) ∧
    (words (serviceCommand (applyPatchService outputPath)) =
        some [deployAgent, ascii "apply", ascii "-", ascii "-o", outputPath] ↔
      Plain outputPath) ∧
    (words (serviceCommand (installWriteService push size sessionId file)) =
        some (installWords push ++ [ascii "install-write", ascii "-S", decimal size,
          decimal sessionId, basename file, ascii "-"]) ↔
      Plain (basename file)) :=
  ⟨words_dumpCommand_iff hname, words_installPatch_iff args, words_applyPatch_iff outputPath,
    words_installWrite_iff push size sessionId file⟩

/-- Names as they usually are. -/
theorem commands_keep_iff_usual :
    words (dumpCommand (ascii "com.example.app")) =
        some [deployAgent, ascii "dump", decimal requiredAgentVersion, ascii "com.example.app"] ∧
      words (serviceCommand (installPatchService [ascii "-t"])) =
        some (patchWords ++ [ascii "-t", ascii "-r"]) ∧
      words (serviceCommand (applyPatchService (ascii "/data/local/tmp/app.apk"))) =
        some [deployAgent, ascii "apply", ascii "-", ascii "-o", ascii "/data/local/tmp/app.apk"] ∧
      words (serviceCommand (installWriteService true 7 1 (ascii "out/base.apk"))) =
        some (installWords true ++ [ascii "install-write", ascii "-S", ascii "7", ascii "1",
          ascii "base.apk", ascii "-"]) := by
  obtain ⟨hdump, hpatch, happly, hwrite⟩ := commands_keep_iff (ascii "com.example.app")
    (ascii "/data/local/tmp/app.apk") (ascii "out/base.apk") [ascii "-t"] true 7 1 (by decide)
  exact ⟨hdump.mpr (by decide), hpatch.mpr (by decide), happly.mpr (by decide),
    hwrite.mpr (by decide)⟩

/-- **A file name with a blank is two words, one with a semicolon is another command, and so is
what a manifest says.** -/
theorem commands_split :
    words (serviceCommand (installWriteService false 7 1 (ascii "my app.apk"))) =
        some [ascii "cmd", ascii "package", ascii "install-write", ascii "-S", ascii "7", ascii "1",
          ascii "my", ascii "app.apk", ascii "-"] ∧
      words (serviceCommand (applyPatchService (ascii "/data/local/tmp/a;reboot;.apk"))) = none ∧
      words (dumpCommand (ascii "x;reboot")) = none ∧
      words (serviceCommand (installPatchService [ascii "-i", ascii "$(reboot)"])) = none := by
  decide +kernel

end AdbBridge
