import LogConsole.Proofs.Session.Isolation

/-!
# LogConsole.Proofs.Session.Callers

A script cannot see the local variables of its caller.

* `withScopes`     — a session with other local scopes;
* `Ignores scopes x s` — with these scopes `x` has the outcome that it has with those of `s`, does
  all the same, and leaves them as they are;
* `within_scope_ignores` — what runs in a scope of its own ignores those of its caller;
* `script_cannot_see_its_caller` — so does a script, once its words are known.
-/

namespace LogConsole

namespace Commands

theorem blind_of_onlyBuiltins {cs : Commands} (only : Session.OnlyBuiltins cs) : cs.Blind := by
  intro name c start hc procedure
  obtain ⟨b, builtin⟩ := only name c hc
  rw [builtin] at procedure
  cases procedure

/-- A command that answers by what is in the innermost scope may be added. -/
theorem Blind.add {cs : Commands} (h : cs.Blind) (help : Help)
    {answer : Context → String → List String → Except Message String}
    (same : ∀ (c : Context) (below : List (Dict String)),
      answer { c with scopes := ⟨c.scopes.top, below⟩ } = answer c) :
    (cs.add ⟨help, .custom answer⟩).Blind := by
  intro name c start hc procedure line words
  have hc : (cs.insert help.name ⟨help, .custom answer⟩).get? name = some c := hc
  rw [Dict.get?_insert] at hc
  split at hc
  · cases hc
    cases procedure
    exact .look (fun c below _ => by rw [same]) fun _ => .answer _
  · exact h name c start hc procedure line words

end Commands

namespace Session

/-- The session with other local scopes. -/
def withScopes (scopes : Stack (Dict String)) (s : Session) : Session :=
  s.changeContext fun c => { c with scopes }

end Session

namespace Run

open Session Script

variable {α β : Type} {x : Run α} {s : Session} {scopes : Stack (Dict String)}

/-- With other local scopes `x` has the same outcome, and does all the same; the scopes stay. -/
def Ignores (scopes : Stack (Dict String)) (x : Run α) (s : Session) : Prop :=
  x (s.withScopes scopes) = (x s).map fun e => (e.1, e.2.withScopes scopes)

theorem Ignores.ensuring {after : Session → Session}
    (h : Ignores scopes x s)
    (same : ∀ t, after (t.withScopes scopes) = (after t).withScopes scopes) :
    Ignores scopes (Run.ensuring x after) s := by
  unfold Ignores Run.ensuring
  rw [h]
  cases x s with
  | none => rfl
  | some e => simp only [Option.map_some, same]

theorem Ignores.map {f : α → β} (h : Ignores scopes x s) :
    Ignores scopes (x >>= fun a => pure (f a)) s := by
  unfold Ignores
  rw [bind_def, bind_def, h]
  rcases x s with _ | ⟨_ | _, _⟩ <;> rfl

theorem refreshAfter_withScopes (t : Session) :
    refreshAfter (t.withScopes scopes) = (refreshAfter t).withScopes scopes := by
  have same : refreshes (t.withScopes scopes) = refreshes t := rfl
  unfold refreshAfter
  rw [same]
  split <;> rfl

/-- The local scope of a script is left when nothing else stands on those of its caller. -/
theorem leave_script {vars : Dict String} {before : Context} {t : Session}
    (alone : t.context.scopes.below = []) (caller : Stack (Dict String)) :
    (t.atop caller.toList).changeConsole (Frame.leave (.scope vars) before)
      = t.withScopes caller := by
  have left : (t.console.context.atop caller.toList).scopes.pop = caller := by
    refine Stack.pop_of_below ?_
    change t.context.scopes.below ++ caller.toList = _
    rw [alone]
    rfl
  simp only [Session.atop, Console.atop, changeConsole, Frame.leave, Context.leaveScope, left]
  rfl

/-- A script starts in a scope of its own, which stands on those of its caller. -/
theorem within_scope_ignores (height : scopes.depth = s.context.scopes.depth)
    (blind : s.commands.Blind) (vars : Dict String) (h : ∀ w t, Isolated w x t) :
    Ignores scopes (within (.scope vars) x) s := by
  let w : Callers := ⟨s.context.scopes.toList, scopes.toList, height⟩
  let u : Session := s.withScopes ⟨vars, []⟩
  have enters : within (.scope vars) x s
      = ensuring x (changeConsole (Frame.leave (.scope vars) s.context)) (u.atop w.one) := rfl
  have enters' : within (.scope vars) x (s.withScopes scopes)
      = ensuring x (changeConsole (Frame.leave (.scope vars) (s.withScopes scopes).context))
        (u.atop w.other) := rfl
  unfold Ignores
  rw [enters, enters']
  cases h w u blind with
  | diverges one other => rw [ensuring, ensuring, one, other]; rfl
  | ends r t below commands one other =>
    rw [ensuring, ensuring, one, other]
    simp only [Option.map_some]
    rw [leave_script below, leave_script below]
    rfl

theorem executeFile_ignores {fuel : Nat} {invocation : String} (multiline : Bool)
    (height : scopes.depth = s.context.scopes.depth) (blind : s.commands.Blind)
    (words : splitExpanded (s.withScopes scopes).console.lookup invocation
      = splitExpanded s.console.lookup invocation) :
    Ignores scopes (executeFile (dispatchMode fuel) invocation multiline) s := by
  rcases hs : splitExpanded s.console.lookup invocation with e | (_ | ⟨name, args⟩)
  · simp only [Ignores, executeFile, words, hs]
    rfl
  · simp only [Ignores, executeFile, words, hs]
    rfl
  · have runs := within_scope_ignores height blind (scriptVariables (name :: args))
      (x := resolveScript name >>= executeAll (dispatchMode fuel) multiline "") fun w t =>
        (isolated_resolveScript name).bind fun _ _ =>
          isolated_executeAll (dispatchMode_isolated fuel) _ _ _ _
    simp only [Ignores, executeFile, words, hs]
    exact runs

end Run

namespace Session

open Run

/-- **A script cannot see the local variables of its caller.** With other local scopes, as many as
there are, an invocation that comes to the same words has the same outcome: it ends or does not, its
result or its failure is the same, and so is the whole session after it but for these scopes, which
are as they were. So it is however scripts, evaluated lines and queries are nested in it, and for
commands from outside that are blind. -/
theorem script_cannot_see_its_caller {s : Session} (scopes : Stack (Dict String))
    {invocation : String} (height : scopes.depth = s.context.scopes.depth)
    (blind : s.commands.Blind)
    (words : splitExpanded (s.withScopes scopes).console.lookup invocation
      = splitExpanded s.console.lookup invocation) (fuel : Nat) :
    (∀ multiline, Ignores scopes (executeScriptFile fuel invocation multiline) s) ∧
    Ignores scopes (dispatchMode fuel .script invocation) s ∧
    (∀ line, Mode.split line = (.script, invocation) →
      Ignores scopes (dispatch fuel line) s ∧ Ignores scopes (executeAny fuel line) s) := by
  have payload (fuel : Nat) : Ignores scopes (dispatchMode fuel .script invocation) s := by
    cases fuel with
    | zero => rfl
    | succ fuel => exact (executeFile_ignores true height blind words).map
  refine ⟨fun multiline => executeFile_ignores multiline height blind words, payload fuel, ?_⟩
  intro line hl
  refine ⟨?_, ?_⟩
  · unfold dispatch dispatchWith
    rw [hl]
    exact (payload fuel).map
  · unfold executeAny executeWith
    rw [hl]
    exact ((payload fuel).ensuring refreshAfter_withScopes).map

/-- A caller with a local variable, and scripts that try to see it: by a command from outside, by a
query, and by replacing variables. -/
def callerWith (secret : String) : Session where
  console :=
    { context := { scopes := ⟨Dict.ofList [("secret", secret), ("name", "Ada")], []⟩ }
      world :=
      { disk :=
        { nodes := [([], .dir), (["show"], .file 0), (["inner"], .file 1)]
          contents := [Text.Utf8.encode ":eval :tell secret\n;SELECT $secret AS seen\n|inner $1\n",
            Text.Utf8.encode ":echo $1 [$secret] [$seen]\n"] } } }
  commands := Commands.builtins.add
    ⟨Help.command "tell" "Tell a local variable",
      .custom fun c _ words => .ok ((c.locals.get? (words.getLastD "")).getD "")⟩

set_option maxRecDepth 8000 in
/-- Neither script sees the secret, and both callers get the same answer. -/
theorem secret_stays_with_its_caller :
    let told := (callerWith "2").context.scopes
    told.depth = (callerWith "1").context.scopes.depth ∧ (callerWith "1").commands.Blind ∧
    ∃ t, executeAny 5 "|show $name" (callerWith "1") = some (.ok "Ada [] []", t) ∧
      executeAny 5 "|show $name" (callerWith "2") = some (.ok "Ada [] []", t.withScopes told) := by
  intro told
  have blind : (callerWith "1").commands.Blind :=
    (Commands.blind_of_onlyBuiltins onlyBuiltins_builtins).add _ fun _ _ => rfl
  have expanded : (splitExpanded (callerWith "1").console.lookup "show $name").toOption
      = some ["show", "Ada"] := by decide +kernel
  have expanded' : (splitExpanded (callerWith "2").console.lookup "show $name").toOption
      = some ["show", "Ada"] := by decide +kernel
  have words : splitExpanded ((callerWith "1").withScopes told).console.lookup "show $name"
      = splitExpanded (callerWith "1").console.lookup "show $name" :=
    (ok_of_toOption expanded').trans (ok_of_toOption expanded).symm
  have run : (executeAny 5 "|show $name" (callerWith "1")).map (fun e => e.1.toOption)
      = some (some "Ada [] []") := by decide +kernel
  obtain ⟨⟨r, t⟩, ran, answered⟩ := Option.map_eq_some_iff.1 run
  obtain rfl : r = .ok "Ada [] []" := ok_of_toOption answered
  obtain ⟨-, -, lines⟩ := script_cannot_see_its_caller told (s := callerWith "1") rfl blind words 5
  have ignores := (lines "|show $name" (by decide)).2
  rw [Ignores, ran] at ignores
  exact ⟨rfl, blind, t, ran, ignores⟩

end Session

end LogConsole
