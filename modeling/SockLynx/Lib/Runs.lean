import Mathlib.Data.List.Basic
import Mathlib.Data.List.Zip

/-!
# Runs of a partial step function

A machine here is a function `step : σ → ε → Option (ρ × σ)`: in state `s` it
consumes the event `e` and either answers `r` and moves on, or has no
successor, which ends the run.  Nothing is assumed of the three types.

* `exec` runs a list of events and collects the answers; it is `none` as soon
  as one step has no successor.
* `Along P` says that every step the run takes satisfies `P`.  A run that ends
  early is only judged on the steps it took, so `Along` is the right shape
  for "in every run, up to the point where the process stops".

## Main results

* `along_of_invariant` — what one step preserves, a run preserves, where the
  step lemma may use a condition `C` that the run meets.
* `along_iff_of_invariant` — if on invariant states a step satisfies `P`
  exactly when it meets `C`, a whole run satisfies `P` exactly when it meets
  `C`: the characterisation of one step is the characterisation of the run.
* `exec_erase` — a step that the relation `R` cannot see may be deleted from
  a run together with its answer.
* `exec_register` — a register that every step overwrites or leaves alone holds
  the last value written.
-/

namespace SockLynx.Lib.Runs

variable {σ ε ρ : Type}

/-- Run the events in order, collecting the answers. -/
def exec (step : σ → ε → Option (ρ × σ)) : σ → List ε → Option (List ρ × σ)
  | s, [] => some ([], s)
  | s, e :: es =>
      match step s e with
      | none => none
      | some (r, s') =>
          match exec step s' es with
          | none => none
          | some (rs, t) => some (r :: rs, t)

/-- Every step taken by the run of `es` from `s` satisfies `P`. -/
def Along (step : σ → ε → Option (ρ × σ)) (P : σ → ε → ρ → σ → Prop) :
    σ → List ε → Prop
  | _, [] => True
  | s, e :: es => ∀ r s', step s e = some (r, s') →
      P s e r s' ∧ Along step P s' es

section Rules

variable {step : σ → ε → Option (ρ × σ)}

/-- A run of `e :: es` is a step followed by a run of `es`. -/
theorem exec_cons_iff {s t : σ} {e : ε} {es : List ε} {rs : List ρ} :
    exec step s (e :: es) = some (rs, t) ↔
      ∃ r s' rs', step s e = some (r, s') ∧ exec step s' es = some (rs', t) ∧
        rs = r :: rs' := by
  simp only [exec]
  constructor
  · intro h
    cases hs : step s e with
    | none => simp [hs] at h
    | some p =>
        obtain ⟨r, s'⟩ := p
        cases ht : exec step s' es with
        | none => simp [hs, ht] at h
        | some q =>
            obtain ⟨rs', t'⟩ := q
            simp only [hs, ht, Option.some.injEq, Prod.mk.injEq] at h
            obtain ⟨rfl, rfl⟩ := h
            exact ⟨r, s', rs', rfl, ht, rfl⟩
  · rintro ⟨r, s', rs', hs, ht, rfl⟩
    simp only [hs, ht]

/-- A run of two lists is a run of the one followed by a run of the other. -/
theorem exec_append_iff {s t : σ} {es fs : List ε} {rs : List ρ} :
    exec step s (es ++ fs) = some (rs, t) ↔
      ∃ rs₁ s' rs₂, exec step s es = some (rs₁, s') ∧ exec step s' fs = some (rs₂, t) ∧
        rs = rs₁ ++ rs₂ := by
  induction es generalizing s rs with
  | nil => simp [exec]
  | cons e es ih =>
      rw [List.cons_append, exec_cons_iff]
      constructor
      · rintro ⟨r, s₁, rs', hs, hrest, rfl⟩
        obtain ⟨rs₁, s', rs₂, hes, hfs, rfl⟩ := ih.mp hrest
        exact ⟨r :: rs₁, s', rs₂, exec_cons_iff.mpr ⟨r, s₁, rs₁, hs, hes, rfl⟩, hfs, rfl⟩
      · rintro ⟨rs₁, s', rs₂, hes, hfs, rfl⟩
        obtain ⟨r, s₁, rs', hs, hrest, rfl⟩ := exec_cons_iff.mp hes
        exact ⟨r, s₁, rs' ++ rs₂, hs, ih.mpr ⟨rs', s', rs₂, hrest, hfs, rfl⟩, rfl⟩

/-- A machine that always has a successor runs through. -/
theorem exec_of_total (h : ∀ s e, ∃ r s', step s e = some (r, s')) (s : σ) (es : List ε) :
    ∃ rs t, exec step s es = some (rs, t) := by
  induction es generalizing s with
  | nil => exact ⟨[], s, rfl⟩
  | cons e es ih =>
      obtain ⟨r, s', hs⟩ := h s e
      obtain ⟨rs, t, ht⟩ := ih s'
      exact ⟨r :: rs, t, exec_cons_iff.mpr ⟨r, s', rs, hs, ht, rfl⟩⟩

/-- A machine that takes every step of another runs as far. -/
theorem exec_mono {step' : σ → ε → Option (ρ × σ)}
    (hstep : ∀ s e r s', step s e = some (r, s') → step' s e = some (r, s')) {s t : σ}
    {es : List ε} {rs : List ρ} (h : exec step s es = some (rs, t)) :
    exec step' s es = some (rs, t) := by
  induction es generalizing s rs with
  | nil => exact h
  | cons e es ih =>
      obtain ⟨r, s', rs', hs, hrest, rfl⟩ := exec_cons_iff.mp h
      exact exec_cons_iff.mpr ⟨r, s', rs', hstep s e r s' hs, ih hrest, rfl⟩

/-- What every step whose event meets `C` preserves, a run of such events
preserves. -/
theorem exec_invariant {Inv : σ → Prop} {C : ε → Prop}
    (hstep : ∀ s e r s', Inv s → C e → step s e = some (r, s') → Inv s')
    {s t : σ} {es : List ε} {rs : List ρ} (hI : Inv s) (hC : ∀ e ∈ es, C e)
    (h : exec step s es = some (rs, t)) : Inv t := by
  induction es generalizing s rs with
  | nil =>
      simp only [exec, Option.some.injEq, Prod.mk.injEq] at h
      exact h.2 ▸ hI
  | cons e es ih =>
      obtain ⟨r, s', rs', hs, hrest, rfl⟩ := exec_cons_iff.mp h
      exact ih (hstep s e r s' hI (hC e List.mem_cons_self) hs)
        (fun e' he' => hC e' (List.mem_cons_of_mem e he')) hrest

/-- An invariant that is kept by steps which meet a condition on their states. -/
theorem exec_invariant_along {Inv : σ → Prop} {C : σ → ε → ρ → σ → Prop}
    (hstep : ∀ s e r s', Inv s → step s e = some (r, s') → C s e r s' → Inv s')
    {s t : σ} {es : List ε} {rs : List ρ} (hI : Inv s) (hC : Along step C s es)
    (h : exec step s es = some (rs, t)) : Inv t := by
  induction es generalizing s rs with
  | nil =>
      simp only [exec, Option.some.injEq, Prod.mk.injEq] at h
      exact h.2 ▸ hI
  | cons e es ih =>
      obtain ⟨r, s', rs', hs, hrest, rfl⟩ := exec_cons_iff.mp h
      obtain ⟨hCs, hCrest⟩ := hC r s' hs
      exact ih (hstep s e r s' hI hs hCs) hCrest hrest

/-- The steps of a run that starts with a known step. -/
theorem along_cons_iff {P : σ → ε → ρ → σ → Prop} {s s' : σ} {e : ε} {r : ρ} {es : List ε}
    (h : step s e = some (r, s')) :
    Along step P s (e :: es) ↔ P s e r s' ∧ Along step P s' es := by
  constructor
  · exact fun hrun => hrun r s' h
  · intro hrun r₁ s₁ h₁
    obtain ⟨rfl, rfl⟩ := Prod.mk.inj (Option.some.inj (h.symm.trans h₁))
    exact hrun

/-- A condition on events that all events of the list meet. -/
theorem along_of_forall_mem {C : ε → Prop} {s : σ} {es : List ε} (h : ∀ e ∈ es, C e) :
    Along step (fun _ e _ _ => C e) s es := by
  induction es generalizing s with
  | nil => trivial
  | cons e es ih =>
      intro r s' _
      exact ⟨h e List.mem_cons_self, ih fun e' he' => h e' (List.mem_cons_of_mem e he')⟩

/--
**Invariant rule.**  If on invariant states every step that meets `C`
satisfies `P` and keeps the invariant, then every run from an invariant state
whose steps all meet `C` satisfies `P` at every step.
-/
theorem along_of_invariant {Inv : σ → Prop} {C P : σ → ε → ρ → σ → Prop}
    (hstep : ∀ s e r s', Inv s → step s e = some (r, s') → C s e r s' →
      P s e r s' ∧ Inv s')
    {s : σ} {es : List ε} (hI : Inv s) (hC : Along step C s es) :
    Along step P s es := by
  induction es generalizing s with
  | nil => trivial
  | cons e es ih =>
      intro r s' hs
      obtain ⟨hCs, hrest⟩ := hC r s' hs
      obtain ⟨hP, hI'⟩ := hstep s e r s' hI hs hCs
      exact ⟨hP, ih hI' hrest⟩

/-- A weaker condition holds along the run as well. -/
theorem Along.imp {P Q : σ → ε → ρ → σ → Prop} (h : ∀ s e r s', P s e r s' → Q s e r s')
    {s : σ} {es : List ε} (hP : Along step P s es) : Along step Q s es := by
  induction es generalizing s with
  | nil => trivial
  | cons e es ih =>
      intro r s' hs
      obtain ⟨hPs, hrest⟩ := hP r s' hs
      exact ⟨h s e r s' hPs, ih hrest⟩

/--
**Exactness rule.**  If on invariant states a step satisfies `P` exactly when
it meets `C`, and the steps that meet `C` keep the invariant, then a run from
an invariant state satisfies `P` at every step exactly when all its steps meet
`C`.  The first step that fails `C` already fails `P`, so the steps after it
are of no account.
-/
theorem along_iff_of_invariant {Inv : σ → Prop} {C P : σ → ε → ρ → σ → Prop}
    (hiff : ∀ s e r s', Inv s → step s e = some (r, s') →
      (P s e r s' ↔ C s e r s'))
    (hinv : ∀ s e r s', Inv s → step s e = some (r, s') → C s e r s' → Inv s')
    {s : σ} {es : List ε} (hI : Inv s) :
    Along step P s es ↔ Along step C s es := by
  induction es generalizing s with
  | nil => exact Iff.rfl
  | cons e es ih =>
      constructor
      · intro h r s' hs
        obtain ⟨hP, hrest⟩ := h r s' hs
        have hC := (hiff s e r s' hI hs).mp hP
        exact ⟨hC, (ih (hinv s e r s' hI hs hC)).mp hrest⟩
      · intro h r s' hs
        obtain ⟨hC, hrest⟩ := h r s' hs
        exact ⟨(hiff s e r s' hI hs).mpr hC,
          (ih (hinv s e r s' hI hs hC)).mpr hrest⟩

end Rules

/-! ## Deleting steps from a run -/

section Erase

variable {step : σ → ε → Option (ρ × σ)}

/-- The events of a run paired with their answers, without those `drop`
selects. -/
def erase (drop : ε → ρ → Bool) (es : List ε) (rs : List ρ) : List (ε × ρ) :=
  (es.zip rs).filter fun p => !drop p.1 p.2

/--
**Erasure.**  `R` relates the states of the full run to those of the erased
one.  If a kept step can be taken from any related state with the same answer,
and a dropped step does not leave `R`, then the erased run exists, gives every
kept event the answer it had, and ends in a related state.
-/
theorem exec_erase {R : σ → σ → Prop} {drop : ε → ρ → Bool}
    (hkeep : ∀ s t e r s', R s t → step s e = some (r, s') → drop e r = false →
      ∃ t', step t e = some (r, t') ∧ R s' t')
    (hdrop : ∀ s t e r s', R s t → step s e = some (r, s') → drop e r = true →
      R s' t)
    {s t s' : σ} {es : List ε} {rs : List ρ} (hR : R s t)
    (h : exec step s es = some (rs, s')) :
    ∃ t', exec step t ((erase drop es rs).map Prod.fst) =
        some ((erase drop es rs).map Prod.snd, t') ∧ R s' t' := by
  induction es generalizing s t rs with
  | nil =>
      simp only [exec, Option.some.injEq, Prod.mk.injEq] at h
      obtain ⟨rfl, rfl⟩ := h
      exact ⟨t, by simp [erase, exec], hR⟩
  | cons e es ih =>
      obtain ⟨r, s₁, rs', hs, hrest, rfl⟩ := exec_cons_iff.mp h
      cases hd : drop e r with
      | true =>
          have hR₁ := hdrop s t e r s₁ hR hs hd
          obtain ⟨t', ht', hR'⟩ := ih hR₁ hrest
          exact ⟨t', by simpa [erase, hd] using ht', hR'⟩
      | false =>
          obtain ⟨t₁, ht₁, hR₁⟩ := hkeep s t e r s₁ hR hs hd
          obtain ⟨t', ht', hR'⟩ := ih hR₁ hrest
          refine ⟨t', ?_, hR'⟩
          simp only [erase, List.zip_cons_cons, List.filter_cons, hd, Bool.not_false,
            if_true, List.map_cons]
          exact exec_cons_iff.mpr ⟨r, t₁, _, ht₁, ht', rfl⟩

end Erase

/-! ## Registers -/

section Registers

variable {β : Type} {step : σ → ε → Option (ρ × σ)}

/-- The values written in a run, in order: `write e r` is what the event `e`
writes when it is answered `r`, if anything. -/
def writes (write : ε → ρ → Option β) (es : List ε) (rs : List ρ) : List β :=
  (es.zip rs).filterMap fun p => write p.1 p.2

/-- The last value written is the last one written after the first event, or
else what the first event wrote. -/
theorem getLast?_writes_cons (write : ε → ρ → Option β) (x : β) (e : ε) (r : ρ)
    (es : List ε) (rs : List ρ) :
    (writes write (e :: es) (r :: rs)).getLast?.getD x =
      (writes write es rs).getLast?.getD ((write e r).getD x) := by
  cases hw : write e r with
  | none => simp [writes, hw]
  | some y =>
      have hcons : writes write (e :: es) (r :: rs) = y :: writes write es rs := by
        simp [writes, hw]
      rw [hcons, List.getLast?_cons]
      rfl

/--
**Register rule.**  `f` is a register of the state.  If every step from an
invariant state whose event meets `C` overwrites it with what `write` says or
leaves it alone, then after a run it holds the last value written, or what it
held before the run where nothing was written.
-/
theorem exec_register {Inv : σ → Prop} {C : ε → Prop} {f : σ → β} {write : ε → ρ → Option β}
    (hinv : ∀ s e r s', Inv s → C e → step s e = some (r, s') → Inv s')
    (hwrite : ∀ s e r s', Inv s → C e → step s e = some (r, s') →
      f s' = (write e r).getD (f s))
    {s t : σ} {es : List ε} {rs : List ρ} (hI : Inv s) (hC : ∀ e ∈ es, C e)
    (h : exec step s es = some (rs, t)) :
    f t = (writes write es rs).getLast?.getD (f s) := by
  induction es generalizing s rs with
  | nil =>
      simp only [exec, Option.some.injEq, Prod.mk.injEq] at h
      obtain ⟨rfl, rfl⟩ := h
      rfl
  | cons e es ih =>
      obtain ⟨r, s', rs', hs, hrest, rfl⟩ := exec_cons_iff.mp h
      have he := hC e List.mem_cons_self
      have hlast := ih (hinv s e r s' hI he hs)
        (fun e' he' => hC e' (List.mem_cons_of_mem e he')) hrest
      rw [hlast, hwrite s e r s' hI he hs]
      exact (getLast?_writes_cons write (f s) e r es rs').symm

/-- Answers that the events determine step by step are determined in a run. -/
theorem exec_answers {Inv : σ → Prop} {C : ε → Prop} {f : ρ → β} {g : ε → β}
    (hinv : ∀ s e r s', Inv s → C e → step s e = some (r, s') → Inv s')
    (hanswer : ∀ s e r s', Inv s → C e → step s e = some (r, s') → f r = g e)
    {s t : σ} {es : List ε} {rs : List ρ} (hI : Inv s) (hC : ∀ e ∈ es, C e)
    (h : exec step s es = some (rs, t)) : rs.map f = es.map g := by
  induction es generalizing s rs with
  | nil =>
      simp only [exec, Option.some.injEq, Prod.mk.injEq] at h
      rw [← h.1]
      rfl
  | cons e es ih =>
      obtain ⟨r, s', rs', hs, hrest, rfl⟩ := exec_cons_iff.mp h
      have he := hC e List.mem_cons_self
      have hrest := ih (hinv s e r s' hI he hs)
        (fun e' he' => hC e' (List.mem_cons_of_mem e he')) hrest
      rw [List.map_cons, List.map_cons, hanswer s e r s' hI he hs, hrest]

end Registers

end SockLynx.Lib.Runs
