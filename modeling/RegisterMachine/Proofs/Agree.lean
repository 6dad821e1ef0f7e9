import RegisterMachine.Proofs.Exec

/-!
# Machines that agree

Two actions on different states agree, from a state each, if they answer the same, up to the names
of faults, and leave related states. There is one rule for every way of building actions, and two
more for a machine that goes ahead of the other (`Gives.agree_left`, `Gives.agree_right`).

* `Exec.Agree`: two actions agree.
* `Exec.agree_iterate`: machines whose steps agree also agree after many steps.
-/

namespace RegisterMachine.Exec

variable {σ τ α β : Type} {R : σ → τ → Prop} {rename : Fault → Fault}

/-- From `s` and `t`, whatever the logs, `y` answers what `x` answers, with faults renamed, and the
states that they leave are related. -/
def Agree (R : σ → τ → Prop) (rename : Fault → Fault) (s : σ) (t : τ) (x : Exec σ α)
    (y : Exec τ α) : Prop :=
  ∀ log log', R (x.final s log) (y.final t log') ∧
    y.result t log' = (x.result s log).mapError rename

section
variable {s s' : σ} {t t' : τ} {x : Exec σ α} {y : Exec τ α} {f : α → Exec σ β} {g : α → Exec τ β}

theorem Agree.of_gives {o : Except Fault α} (hx : Gives s x o s')
    (hy : Gives t y (o.mapError rename) t') (h : R s' t') : Agree R rename s t x y := by
  intro log log'
  rw [hx.final_eq log, hy.final_eq log', hx.result_eq log, hy.result_eq log']
  exact ⟨h, rfl⟩

theorem Agree.throw (h : R s t) (fault : Fault) :
    Agree R rename s t (MonadExcept.throw fault : Exec σ α)
      (MonadExcept.throw (rename fault) : Exec τ α) :=
  Agree.of_gives (gives_throw s fault) (gives_throw t _) h

/-- What is known of the first action alone may be used after it. -/
theorem Agree.bind_of {P : α → σ → Prop} (h : Agree R rename s t x y)
    (hx : Ensures s x fun o s' => ∀ a, o = .ok a → P a s')
    (hfg : ∀ a s' t', R s' t' → P a s' → Agree R rename s' t' (f a) (g a)) :
    Agree R rename s t (x >>= f) (y >>= g) := by
  intro log log'
  obtain ⟨hR, ho⟩ := h log log'
  have hP := hx log
  rw [result_bind, final_bind, result_bind, final_bind, ho]
  generalize x.result s log = o at hP ⊢
  cases o with
  | ok a => exact hfg a _ _ hR (hP a rfl) _ _
  | error fault => exact ⟨hR, rfl⟩

theorem Agree.bind (h : Agree R rename s t x y)
    (hfg : ∀ a s' t', R s' t' → Agree R rename s' t' (f a) (g a)) :
    Agree R rename s t (x >>= f) (y >>= g) :=
  h.bind_of (P := fun _ _ => True) (fun _ _ _ => trivial) fun a s' t' hR _ => hfg a s' t' hR

theorem Agree.tryCatch {hx : Fault → Exec σ α} {hy : Fault → Exec τ α}
    (h : Agree R rename s t x y)
    (hcatch : ∀ fault s' t', R s' t' → Agree R rename s' t' (hx fault) (hy (rename fault))) :
    Agree R rename s t (tryCatch x hx) (tryCatch y hy) := by
  intro log log'
  obtain ⟨hR, ho⟩ := h log log'
  rw [result_tryCatch, final_tryCatch, result_tryCatch, final_tryCatch, ho]
  generalize x.result s log = o
  cases o with
  | ok a => exact ⟨hR, rfl⟩
  | error fault => exact hcatch fault _ _ hR _ _

theorem Agree.and {P : σ → Prop} (h : Agree R rename s t x y) (hx : Ensures s x fun _ => P) :
    Agree (fun s t => R s t ∧ P s) rename s t x y :=
  fun log log' => ⟨⟨(h log log').1, hx log⟩, (h log log').2⟩

theorem Gives.agree_left {a : α} {y : Exec τ β} (hx : Gives s x (.ok a) s')
    (h : Agree R rename s' t (f a) y) : Agree R rename s t (x >>= f) y := by
  intro log log'
  rw [result_bind, final_bind, hx.result_eq log, hx.final_eq log]
  exact h _ log'

theorem Gives.agree_right {a : α} {x : Exec σ β} (hy : Gives t y (.ok a) t')
    (h : Agree R rename s t' x (g a)) : Agree R rename s t x (y >>= g) := by
  intro log log'
  rw [result_bind, final_bind, hy.result_eq log', hy.final_eq log']
  exact h log _

end

/-- Machines whose steps agree also agree after many steps, each step on the way included. -/
theorem agree_iterate {x : Exec σ α} {y : Exec τ α} {s : σ} {t : τ} (log log' : Log) (n : ℕ)
    (h : R s t)
    (hstep : ∀ k < n, ∀ t', R (iterate x s log k).1 t' →
      Agree R rename (iterate x s log k).1 t' x y) :
    R (iterate x s log n).1 (iterate y t log' n).1 ∧
      ∀ k < n, outcome y t log' k = (outcome x s log k).mapError rename := by
  induction n with
  | zero => exact ⟨h, by simp⟩
  | succ n ih =>
    obtain ⟨hR, ho⟩ := ih fun k hk => hstep k (by omega)
    obtain ⟨hR', ho'⟩ := hstep n (by omega) _ hR (iterate x s log n).2 (iterate y t log' n).2
    refine ⟨hR', fun k hk => ?_⟩
    rcases Nat.lt_succ_iff_lt_or_eq.1 hk with hk | rfl
    · exact ho k hk
    · exact ho'

end RegisterMachine.Exec
