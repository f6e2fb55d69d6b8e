import LogConsole.Proofs.Disk.Obstacles
import LogConsole.Proofs.Script.Index

/-!
# LogConsole.Proofs.Script.Fallback

Scripts that are named by their files.

* `resolve_unlisted`      — a name that is not standard input and not in the index stands for one file
  or for none;
* `literalFile_eq_beside` — the directory of the running script is tried only if there is nothing of
  the name in the directory of the process;
* `literal_script_resolves` — so a file of the name is found, and one beside the running script exactly
  if the name is not obstructed in the directory of the process;
* `script_hidden_by_directory` — a directory of that name hides a script from the script beside it.

Whether a script finds another one beside it depends on what else is where the process was started.
-/

namespace LogConsole

namespace Resolver

variable {d : Disk} {r : Resolver} {ctx : Context} {name dir : String}

/-- The name of a script that is not found, and why. -/
def Unknown (r : Resolver) (ctx : Context) (d : Disk) (name reason : String) : Prop :=
  r.resolve ctx d name = (.error (ctx.error .scriptNotFound (unknown name reason)), r)

theorem resolve_unlisted (ctx : Context) (script : isStdin name = false)
    (unlisted : Dict.find? name (r.index d) = none) :
    (∀ c, literalFile d ctx.directory name = .ok c → r.resolve ctx d name = (.ok [c], r)) ∧
    ∀ reason, literalFile d ctx.directory name = .error reason → r.Unknown ctx d name reason := by
  have none : r.filesNamed d name = [] := by
    by_contra some
    rw [find?_index, if_neg some] at unlisted
    cases unlisted
  refine ⟨fun c h => ?_, fun reason h => ?_⟩
  · rw [resolve_literal script none, h]
  · rw [Unknown, resolve_literal script none, h]

/-! ## One file -/

/-- The directory of the running script is tried if there is nothing of the name. -/
theorem literalFile_eq_beside (missing : d.find name = .error .notFound) :
    literalFile d dir name = besideScript d dir name := by
  rw [literalFile, missing]

theorem besideScript_eq (relative : Path.isAbsolute name = false)
    (beside : d.isFile (Path.join dir name) = true) :
    besideScript d dir name = .ok (Candidate.ofFile d (Path.join dir name)) := by
  obtain ⟨l, id, found⟩ := Disk.isFile_iff.1 beside
  simp [besideScript, relative, found]

theorem besideScript_fails (h : Path.isAbsolute name = true ∨ d.isFile (Path.join dir name) = false) :
    ∃ reason, besideScript d dir name = .error reason := by
  unfold besideScript
  split
  · exact ⟨_, rfl⟩
  case isFalse relative =>
    have no := h.resolve_left relative
    split
    case h_1 found => simp [Disk.isFile, found] at no
    all_goals exact ⟨_, rfl⟩

theorem literalFile_fails (no : d.isFile name = false)
    (h : Path.isAbsolute name = true ∨ d.isFile (Path.join dir name) = false) :
    ∃ reason, literalFile d dir name = .error reason := by
  unfold literalFile
  split
  case h_1 found => simp [Disk.isFile, found] at no
  case h_3 => exact besideScript_fails h
  all_goals exact ⟨_, rfl⟩

/-- What stands in the way of a name is all that is told of it. -/
theorem literalFile_obstructed (dir : String)
    (h : (∃ l n, d.find name = .ok (l, n) ∧ ∀ id, n ≠ .file id) ∨
      d.find name = .error .notDirectory) :
    ∃ reason ∈ [notFound, IoError.notDirectory.message],
      literalFile d dir name = .error reason := by
  rcases h with ⟨l, n, found, other⟩ | blocked
  · refine ⟨notFound, by simp, ?_⟩
    rw [literalFile, found]
    cases n with
    | file id => exact absurd rfl (other id)
    | dir | sink | full => rfl
  · exact ⟨IoError.notDirectory.message, by simp, by rw [literalFile, blocked]⟩

/-! ## The result -/

/-- **A script is found by the name of its file, unless something else is in the way.** For a name that
is neither standard input nor in the index, whatever files there are and whatever directories have been
entered: a regular file of the name, absolute or from the directory of the process, is the one
candidate. If there is none, a regular file of the name from the directory of the running script is the
one candidate if and only if the name is not obstructed in the directory of the process; if it is, no
script is found. If there is neither, no script is found. -/
theorem literal_script_resolves (r : Resolver) (ctx : Context) (d : Disk) {name : String}
    (script : isStdin name = false) (unlisted : Dict.find? name (r.index d) = none) :
    (d.isFile name = true → r.resolve ctx d name = (.ok [Candidate.ofFile d name], r)) ∧
    (d.isFile name = false → Path.isAbsolute name = false →
      d.isFile (Path.join ctx.directory name) = true →
      (r.resolve ctx d name = (.ok [Candidate.ofFile d (Path.join ctx.directory name)], r) ↔
        ¬ d.Obstructed name) ∧
      (d.Obstructed name →
        ∃ reason ∈ [notFound, IoError.notDirectory.message], r.Unknown ctx d name reason)) ∧
    (d.isFile name = false →
      Path.isAbsolute name = true ∨ d.isFile (Path.join ctx.directory name) = false →
      ∃ reason, r.Unknown ctx d name reason) := by
  obtain ⟨resolves, fails⟩ := resolve_unlisted ctx script unlisted
  refine ⟨fun here => resolves _ (literalFile_here here), fun no relative beside => ?_,
    fun no neither => ?_⟩
  · rcases Disk.find_of_beside relative beside no with ⟨missing, clear⟩ | ⟨obstructed, answer⟩
    · have found := resolves _ ((literalFile_eq_beside missing).trans (besideScript_eq relative beside))
      exact ⟨iff_of_true found clear, fun obstructed => absurd obstructed clear⟩
    · obtain ⟨reason, told, failed⟩ := literalFile_obstructed ctx.directory answer
      have failed := fails reason failed
      refine ⟨iff_of_false (fun found => ?_) (not_not_intro obstructed), fun _ => ⟨reason, told, failed⟩⟩
      rw [Unknown, found] at failed
      cases failed
  · obtain ⟨reason, failed⟩ := literalFile_fails no neither
    exact ⟨reason, fails reason failed⟩

/-- A script that invokes the one beside it, and what else there is. -/
def twoScripts (others : List (Location × Node)) : Disk where
  nodes := ([], .dir) :: others ++ [(["scripts"], .dir), (["scripts", "inner.lsh"], .file 0),
    (["scripts", "outer.lsh"], .file 1)]
  contents := [Text.Utf8.encode "/hit\n", Text.Utf8.encode "|inner.lsh\n"]

/-- The context of a script in the directory of the two. -/
def besideInner : Context := { directories := ⟨"scripts", ["."]⟩ }

/-- The script is found by its path, and by its name from beside it. -/
theorem inner_script_resolves :
    let d := twoScripts []
    let r : Resolver := {}
    (isStdin "scripts/inner.lsh" = false ∧ Dict.find? "scripts/inner.lsh" (r.index d) = none ∧
      r.resolve {} d "scripts/inner.lsh" = (.ok [Candidate.ofFile d "scripts/inner.lsh"], r)) ∧
    (isStdin "inner.lsh" = false ∧ Dict.find? "inner.lsh" (r.index d) = none ∧
      r.resolve besideInner d "inner.lsh" = (.ok [Candidate.ofFile d "scripts/inner.lsh"], r) ∧
      ¬ d.Obstructed "inner.lsh") := by
  intro d r
  have scripts : isStdin "scripts/inner.lsh" = false ∧ isStdin "inner.lsh" = false := by decide
  have unlisted : Dict.find? "scripts/inner.lsh" (r.index d) = none ∧
      Dict.find? "inner.lsh" (r.index d) = none := by decide
  have here : d.isFile "scripts/inner.lsh" = true := by decide +kernel
  have no : d.isFile "inner.lsh" = false := by decide +kernel
  have relative : Path.isAbsolute "inner.lsh" = false := by decide
  have found : r.resolve besideInner d "inner.lsh"
      = (.ok [Candidate.ofFile d "scripts/inner.lsh"], r) := by decide +kernel
  obtain ⟨byPath, -, -⟩ := literal_script_resolves r {} d scripts.1 unlisted.1
  obtain ⟨-, byName, -⟩ := literal_script_resolves r besideInner d scripts.2 unlisted.2
  exact ⟨⟨scripts.1, unlisted.1, byPath here⟩, scripts.2, unlisted.2, found,
    (byName no relative here).1.1 found⟩

end Resolver

namespace Session

open Resolver

/-- A session with the two scripts. -/
def twoScriptsSession (others : List (Location × Node)) : Session where
  console := { world := { disk := twoScripts others } }

/-- An empty directory of the name of a script hides it from the script beside it, which runs it
where there is no such directory. -/
theorem script_hidden_by_directory :
    let d := twoScripts [(["inner.lsh"], .dir)]
    isStdin "inner.lsh" = false ∧ Dict.find? "inner.lsh" (({} : Resolver).index d) = none ∧
    d.isFile "inner.lsh" = false ∧ Path.isAbsolute "inner.lsh" = false ∧
    d.isFile (Path.join besideInner.directory "inner.lsh") = true ∧
    Unknown {} besideInner d "inner.lsh" "file not found" ∧
    (executeAny 5 "|scripts/outer.lsh" (twoScriptsSession [])).map (fun ended => ended.2.host.calls)
      = some [.search "hit"] ∧
    (executeAny 5 "|scripts/outer.lsh" (twoScriptsSession [(["inner.lsh"], .dir)])).map
      (fun ended => ended.2.host.calls) = some [] := by
  refine ⟨by decide, by decide, by decide +kernel, by decide, by decide +kernel, ?_,
    by decide +kernel, by decide +kernel⟩
  rw [Unknown]
  decide +kernel

end Session

end LogConsole
