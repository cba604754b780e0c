import TensorArena.Interpreter.Site

/-!
# What runs of a pass guarantee

`Pass.Runs p s ok err` says what a run of `p` on the site `s` leads to: an answer and a site that
satisfy `ok`, or an error and a site that satisfy `err`. A pass that fails keeps what it did before it
failed, so both ends speak about the site.

There is one rule for each way of making a pass. A pass is shown to be right by going through its
steps with `Runs.bind`, each step with its own rule.
-/

namespace TensorArena

namespace Pass

variable {σ π ε α β : Type} {s : Site σ π}

/-- The outcome of a pass on a site, and the site afterwards. -/
def exec (p : Pass σ π ε α) (s : Site σ π) : Except ε α × Site σ π :=
  p.run.run s

/-- Where a run of a pass on a site leads to. -/
def Runs (p : Pass σ π ε α) (s : Site σ π) (ok : α → Site σ π → Prop)
    (err : ε → Site σ π → Prop) : Prop :=
  match p.exec s with
  | (.ok a, s') => ok a s'
  | (.error e, s') => err e s'

theorem Runs.of_ok {p : Pass σ π ε α} {ok : α → Site σ π → Prop} {err : ε → Site σ π → Prop}
    (h : p.Runs s ok err) {a : α} {s' : Site σ π} (hp : p.exec s = (.ok a, s')) : ok a s' := by
  rw [Runs, hp] at h
  exact h

theorem Runs.of_error {p : Pass σ π ε α} {ok : α → Site σ π → Prop} {err : ε → Site σ π → Prop}
    (h : p.Runs s ok err) {e : ε} {s' : Site σ π} (hp : p.exec s = (.error e, s')) : err e s' := by
  rw [Runs, hp] at h
  exact h

/-! ## Combining runs -/

theorem Runs.mono {p : Pass σ π ε α} {ok ok' : α → Site σ π → Prop}
    {err err' : ε → Site σ π → Prop} (h : p.Runs s ok err) (hok : ∀ a s', ok a s' → ok' a s')
    (herr : ∀ e s', err e s' → err' e s') : p.Runs s ok' err' := by
  unfold Runs at h ⊢
  split
  · rename_i a s' hp
    rw [hp] at h
    exact hok a s' h
  · rename_i e s' hp
    rw [hp] at h
    exact herr e s' h

theorem exec_bind (p : Pass σ π ε α) (f : α → Pass σ π ε β) (s : Site σ π) :
    (p >>= f).exec s =
      match p.exec s with
      | (.ok a, s') => (f a).exec s'
      | (.error e, s') => (.error e, s') := by
  simp only [exec, ExceptT.run_bind, StateT.run_bind]
  change (match p.run.run s with | (r, s') => _) = _
  rcases p.run.run s with ⟨_ | _, s'⟩
  · rfl
  · rfl

theorem Runs.bind {p : Pass σ π ε α} {f : α → Pass σ π ε β} {mid : α → Site σ π → Prop}
    {ok : β → Site σ π → Prop} {err : ε → Site σ π → Prop} (hp : p.Runs s mid err)
    (hf : ∀ a s', mid a s' → (f a).Runs s' ok err) : (p >>= f).Runs s ok err := by
  unfold Runs at hp
  rw [Runs, exec_bind]
  split at hp
  · exact hf _ _ hp
  · exact hp

/-! ## Single steps -/

theorem Runs.of_pure {a : α} {ok : α → Site σ π → Prop} {err : ε → Site σ π → Prop} (h : ok a s) :
    (Pure.pure a : Pass σ π ε α).Runs s ok err :=
  h

theorem Runs.of_throw {e : ε} {ok : α → Site σ π → Prop} {err : ε → Site σ π → Prop} (h : err e s) :
    (MonadExcept.throw e : Pass σ π ε α).Runs s ok err :=
  h

theorem Runs.of_note {level : Level} {text : String} {ok : Unit → Site σ π → Prop}
    {err : ε → Site σ π → Prop} (h : ok () (s.note level text)) :
    (note level text : Pass σ π ε Unit).Runs s ok err :=
  h

theorem Runs.of_lift {x : Except ε α} {ok : α → Site σ π → Prop} {err : ε → Site σ π → Prop}
    (hok : ∀ a, x = .ok a → ok a s) (herr : ∀ e, x = .error e → err e s) :
    (liftExcept x : Pass σ π ε α).Runs s ok err := by
  cases x with
  | ok a => exact hok a rfl
  | error e => exact herr e rfl

/-! ## Steps before others -/

variable {f : α → Pass σ π ε β} {ok : β → Site σ π → Prop} {err : ε → Site σ π → Prop}

theorem Runs.lift_bind {x : Except ε α} (hok : ∀ a, x = .ok a → (f a).Runs s ok err)
    (herr : ∀ e, x = .error e → err e s) :
    ((liftExcept x : Pass σ π ε α) >>= f).Runs s ok err := by
  cases x with
  | ok a => exact hok a rfl
  | error e => exact herr e rfl

theorem Runs.get_bind {f : Site σ π → Pass σ π ε β} (h : (f s).Runs s ok err) :
    ((MonadState.get : Pass σ π ε (Site σ π)) >>= f).Runs s ok err :=
  h

theorem Runs.modify_bind {change : Site σ π → Site σ π} {f : PUnit → Pass σ π ε β}
    (h : (f ⟨⟩).Runs (change s) ok err) :
    ((modify change : Pass σ π ε PUnit) >>= f).Runs s ok err :=
  h

theorem Runs.modifyGet_bind {change : Site σ π → α × Site σ π}
    (h : (f (change s).1).Runs (change s).2 ok err) :
    ((modifyGet change : Pass σ π ε α) >>= f).Runs s ok err :=
  h

theorem Runs.note_bind {level : Level} {text : String} {f : Unit → Pass σ π ε β}
    (h : (f ()).Runs (s.note level text) ok err) :
    ((note level text : Pass σ π ε Unit) >>= f).Runs s ok err :=
  h

end Pass

end TensorArena
