import Mathlib.Data.List.Basic

/-!
# Runs of event machines

A machine is a partial step function: in a state it either reacts to an event or
refuses it.  A run performs a finite list of events, in order, and is refused as
soon as one of its events is.

This file contains the rules by which properties of single steps become
properties of whole runs:

* an invariant kept by every step that meets a condition holds at the end of every
  run whose steps all meet it (`run_invariant_of_meets`), and along it
  (`always_of_meets`); `run_invariant` is the case of no condition;
* where the condition is exactly what one step needs, the runs that meet it are
  exactly the runs along which the property holds (`always_iff_meets`), or
  throughout which a relation of the steps does (`throughout_iff_meets`).

Nothing here depends on what the machines compute.
-/

namespace SpannerClient
namespace Machine

universe u v

variable {S : Type u}
variable {E : Type v}

/-- Perform the events in order; `none` once an event is refused. -/
def run (step : S → E → Option S) : S → List E → Option S
  | s, [] => some s
  | s, e :: es => (step s e).bind fun t => run step t es

@[simp] theorem run_nil
    (step : S → E → Option S)
    (s : S) :
    run step s [] = some s := by
  rfl

theorem run_cons
    (step : S → E → Option S)
    (s : S) (e : E) (es : List E) :
    run step s (e :: es) =
      (step s e).bind fun t => run step t es := by
  rfl

/-- Peel the first step from a successful run. -/
theorem run_cons_success
    {step : S → E → Option S}
    {s u : S} {e : E} {es : List E}
    (hrun : run step s (e :: es) = some u) :
    ∃ t : S,
      step s e = some t ∧
      run step t es = some u := by
  rw [run_cons, Option.bind_eq_some_iff] at hrun
  exact hrun

/-- A run of two parts performs the one and then the other. -/
theorem run_append
    (step : S → E → Option S)
    (s : S) (es fs : List E) :
    run step s (es ++ fs) =
      (run step s es).bind fun t => run step t fs := by
  induction es generalizing s with
  | nil =>
      rfl
  | cons e es ih =>
      rw [List.cons_append, run_cons, run_cons, Option.bind_assoc]
      exact congrArg (step s e).bind (funext fun t => ih t)

/-- Every step of the run meets the condition `G` in the state it is taken. -/
def Meets
    (step : S → E → Option S)
    (G : S → E → Prop) :
    S → List E → Prop
  | _, [] => True
  | s, e :: es =>
      G s e ∧ ∀ t, step s e = some t → Meets step G t es

@[simp] theorem meets_nil
    (step : S → E → Option S)
    (G : S → E → Prop)
    (s : S) :
    Meets step G s [] := by
  trivial

theorem meets_cons
    {step : S → E → Option S}
    {G : S → E → Prop}
    {s : S} {e : E} {es : List E} :
    Meets step G s (e :: es) ↔
      G s e ∧ ∀ t, step s e = some t → Meets step G t es := by
  rfl

/-- The condition is met by the first step, which leads to `t`, and from there. -/
theorem meets_of_step
    {step : S → E → Option S}
    {G : S → E → Prop}
    {s t : S} {e : E} {es : List E}
    (hG : G s e)
    (hstep : step s e = some t)
    (h : Meets step G t es) :
    Meets step G s (e :: es) := by
  refine ⟨hG, fun u hu => ?_⟩
  obtain rfl : t = u := Option.some.inj (hstep.symm.trans hu)
  exact h

/-- Two conditions are met together. -/
theorem meets_and
    {step : S → E → Option S}
    {G H : S → E → Prop}
    {s : S} {es : List E}
    (hG : Meets step G s es)
    (hH : Meets step H s es) :
    Meets step (fun s e => G s e ∧ H s e) s es := by
  induction es generalizing s with
  | nil => trivial
  | cons e es ih =>
      exact
        ⟨⟨hG.1, hH.1⟩, fun t ht => ih (hG.2 t ht) (hH.2 t ht)⟩

/-- The invariant rule for runs whose steps all meet a condition. -/
theorem run_invariant_of_meets
    {step : S → E → Option S}
    {I : S → Prop} {G : S → E → Prop}
    (hstep :
      ∀ s e t, I s → G s e → step s e = some t → I t)
    {s t : S} {es : List E}
    (hs : I s)
    (hmeets : Meets step G s es)
    (hrun : run step s es = some t) :
    I t := by
  induction es generalizing s with
  | nil =>
      simp only [run_nil, Option.some.injEq] at hrun
      subst hrun
      exact hs
  | cons e es ih =>
      obtain ⟨q, hq, htail⟩ := run_cons_success hrun
      exact ih (hstep s e q hs hmeets.1 hq) (hmeets.2 q hq) htail

/-- A condition on the events alone. -/
theorem meets_of_forall
    {step : S → E → Option S}
    {P : E → Prop}
    {s : S} {es : List E}
    (hP : ∀ e ∈ es, P e) :
    Meets step (fun _ e => P e) s es := by
  induction es generalizing s with
  | nil => trivial
  | cons e es ih =>
      refine ⟨hP e List.mem_cons_self, fun t _ => ih fun e he => ?_⟩
      exact hP e (List.mem_cons_of_mem _ he)

/-- The invariant rule for runs of events that all have a property. -/
theorem run_invariant_of_forall
    {step : S → E → Option S}
    {I : S → Prop} {P : E → Prop}
    (hstep :
      ∀ s e t, I s → P e → step s e = some t → I t)
    {s t : S} {es : List E}
    (hs : I s)
    (hP : ∀ e ∈ es, P e)
    (hrun : run step s es = some t) :
    I t :=
  run_invariant_of_meets hstep hs (meets_of_forall hP) hrun

/-- The invariant rule. -/
theorem run_invariant
    {step : S → E → Option S}
    {I : S → Prop}
    (hstep :
      ∀ s e t, I s → step s e = some t → I t)
    {s t : S} {es : List E}
    (hs : I s)
    (hrun : run step s es = some t) :
    I t :=
  run_invariant_of_forall (P := fun _ => True)
    (fun s e t hs _ => hstep s e t hs) hs (fun _ _ => trivial) hrun

/-- The invariant rule for an invariant with a counter, which the events with `p`
increase. -/
theorem run_counted
    {step : S → E → Option S}
    {I : Nat → S → Prop}
    (p : E → Bool)
    (hstep :
      ∀ n s e t, I n s → step s e = some t → I (n + (p e).toNat) t)
    {n : Nat} {s t : S} {es : List E}
    (hs : I n s)
    (hrun : run step s es = some t) :
    I (n + es.countP p) t := by
  induction es generalizing n s with
  | nil =>
      simp only [run_nil, Option.some.injEq] at hrun
      subst hrun
      exact hs
  | cons e es ih =>
      obtain ⟨q, hq, htail⟩ := run_cons_success hrun
      have ht := ih (hstep n s e q hs hq) htail
      rw [List.countP_cons, Nat.add_comm (es.countP p), ← Nat.add_assoc]
      cases hp : p e <;> simpa [hp] using ht

/-- A run meets a condition on every prefix of its events. -/
theorem meets_of_initial
    {step : S → E → Option S}
    {G : S → E → Prop}
    {s : S} {es fs : List E}
    (hpre : es <+: fs)
    (hmeets : Meets step G s fs) :
    Meets step G s es := by
  obtain ⟨rest, rfl⟩ := hpre
  induction es generalizing s with
  | nil =>
      trivial
  | cons e es ih =>
      exact ⟨hmeets.1, fun t ht => ih (hmeets.2 t ht)⟩

/-- `P` holds in every state the run passes through. -/
def Always
    (step : S → E → Option S)
    (P : S → Prop)
    (s : S) (es : List E) : Prop :=
  ∀ pre, pre <+: es → ∀ t, run step s pre = some t → P t

theorem always_nil
    {step : S → E → Option S}
    {P : S → Prop}
    {s : S} :
    Always step P s [] ↔ P s := by
  constructor
  · intro h
    exact h [] (List.prefix_refl []) s rfl
  · intro hs pre hpre t hrun
    obtain rfl := List.prefix_nil.mp hpre
    simp only [run_nil, Option.some.injEq] at hrun
    subst hrun
    exact hs

theorem always_cons
    {step : S → E → Option S}
    {P : S → Prop}
    {s : S} {e : E} {es : List E} :
    Always step P s (e :: es) ↔
      P s ∧ ∀ t, step s e = some t → Always step P t es := by
  constructor
  · intro h
    refine ⟨h [] List.nil_prefix s rfl, ?_⟩
    intro t ht pre hpre u hrun
    refine h (e :: pre) (List.cons_prefix_cons.mpr ⟨rfl, hpre⟩) u ?_
    rw [run_cons, ht]
    exact hrun
  · rintro ⟨hs, htail⟩ pre hpre u hrun
    cases pre with
    | nil =>
        simp only [run_nil, Option.some.injEq] at hrun
        subst hrun
        exact hs
    | cons f pre =>
        obtain ⟨rfl, htailPre⟩ := List.cons_prefix_cons.mp hpre
        obtain ⟨t, ht, hrest⟩ := run_cons_success hrun
        exact htail t ht pre htailPre u hrest

/-- An invariant kept by the steps that meet a condition holds along every run
whose steps all meet it. -/
theorem always_of_meets
    {step : S → E → Option S}
    {I : S → Prop} {G : S → E → Prop}
    (hstep :
      ∀ s e t, I s → G s e → step s e = some t → I t)
    {s : S} {es : List E}
    (hs : I s)
    (hmeets : Meets step G s es) :
    Always step I s es := by
  intro pre hpre t hrun
  exact run_invariant_of_meets hstep hs (meets_of_initial hpre hmeets) hrun

/-- Every step of the run, from its state by its event to the next state, is
related by `R`. -/
def Throughout
    (step : S → E → Option S)
    (R : S → E → S → Prop) :
    S → List E → Prop
  | _, [] => True
  | s, e :: es =>
      ∀ t, step s e = some t → R s e t ∧ Throughout step R t es

@[simp] theorem throughout_nil
    (step : S → E → Option S)
    (R : S → E → S → Prop)
    (s : S) :
    Throughout step R s [] := by
  trivial

theorem throughout_cons
    {step : S → E → Option S}
    {R : S → E → S → Prop}
    {s : S} {e : E} {es : List E} :
    Throughout step R s (e :: es) ↔
      ∀ t, step s e = some t → R s e t ∧ Throughout step R t es := by
  rfl

/-- A property of all states is one of the first state and of all steps. -/
theorem always_iff_throughout
    {step : S → E → Option S}
    {P : S → Prop}
    {s : S} {es : List E} :
    Always step P s es ↔
      P s ∧ Throughout step (fun _ _ t => P t) s es := by
  induction es generalizing s with
  | nil =>
      simp [always_nil]
  | cons e es ih =>
      rw [always_cons, throughout_cons]
      refine and_congr_right fun _ => forall_congr' fun t => ?_
      exact imp_congr_right fun _ => ih

/--
The exact condition for a relation of the steps.  Suppose that the steps that
meet `G` keep `J` and are in `R`, and that a step from a state with `J` that does
not meet `G` is not in `R`.  Then `R` holds throughout a run exactly when all its
performed steps meet `G`.
-/
theorem throughout_iff_meets
    {step : S → E → Option S}
    {I J : S → Prop} {R : S → E → S → Prop} {G : S → E → Prop}
    (hinv :
      ∀ s e t, I s → step s e = some t → I t)
    (hkeep :
      ∀ s e t, I s → J s → G s e → step s e = some t → J t ∧ R s e t)
    (hbreak :
      ∀ s e t, I s → J s → ¬G s e → step s e = some t → ¬R s e t)
    {s t : S} {es : List E}
    (hs : I s) (hJ : J s)
    (hrun : run step s es = some t) :
    Throughout step R s es ↔ Meets step G s es := by
  induction es generalizing s with
  | nil =>
      simp
  | cons e es ih =>
      obtain ⟨q, hq, htail⟩ := run_cons_success hrun
      have hqI := hinv s e q hs hq
      rw [throughout_cons, meets_cons]
      constructor
      · intro hall
        obtain ⟨hR, hrest⟩ := hall q hq
        have hG : G s e := by
          by_contra hnot
          exact hbreak s e q hs hJ hnot hq hR
        refine ⟨hG, ?_⟩
        intro r hr
        obtain rfl : q = r := Option.some.inj (hq.symm.trans hr)
        exact (ih hqI (hkeep s e q hs hJ hG hq).1 htail).1 hrest
      · rintro ⟨hG, hrest⟩ r hr
        obtain rfl : q = r := Option.some.inj (hq.symm.trans hr)
        obtain ⟨hqJ, hR⟩ := hkeep s e q hs hJ hG hq
        exact ⟨hR, (ih hqI hqJ htail).2 (hrest q hq)⟩

/--
The exact condition for a property that follows from a stronger one.  Suppose
that the steps that meet `G` keep `J`, which implies `P`, and that a step from a
state with `J` that does not meet `G` ends in a state without `P`.  Then `P`
holds along a run exactly when all its performed steps meet `G`.
-/
theorem always_iff_meets_of_stronger
    {step : S → E → Option S}
    {I J P : S → Prop} {G : S → E → Prop}
    (hinv :
      ∀ s e t, I s → step s e = some t → I t)
    (hkeep :
      ∀ s e t, I s → J s → G s e → step s e = some t → J t)
    (hbreak :
      ∀ s e t, I s → J s → ¬G s e → step s e = some t → ¬P t)
    (himp : ∀ s, I s → J s → P s)
    {s t : S} {es : List E}
    (hs : I s) (hJ : J s)
    (hrun : run step s es = some t) :
    Always step P s es ↔ Meets step G s es := by
  rw [always_iff_throughout, and_iff_right (himp s hs hJ)]
  refine throughout_iff_meets hinv ?_ hbreak hs hJ hrun
  intro q e r hq hqJ hG hstep
  have hrJ := hkeep q e r hq hqJ hG hstep
  exact ⟨hrJ, himp r (hinv q e r hq hstep) hrJ⟩

/--
The exact condition.  Let `I` be an invariant of every step, and suppose that a
step from a state with `P` ends in a state with `P` exactly when it meets `G`.
Then `P` holds along a run exactly when all its performed steps meet `G`.
-/
theorem always_iff_meets
    {step : S → E → Option S}
    {I P : S → Prop} {G : S → E → Prop}
    (hinv :
      ∀ s e t, I s → step s e = some t → I t)
    (hexact :
      ∀ s e t, I s → P s → step s e = some t → (P t ↔ G s e))
    {s t : S} {es : List E}
    (hs : I s) (hP : P s)
    (hrun : run step s es = some t) :
    Always step P s es ↔ Meets step G s es := by
  refine always_iff_meets_of_stronger hinv ?_ ?_ ?_ hs hP hrun
  · intro q e r hq hqP hG hstep
    exact (hexact q e r hq hqP hstep).2 hG
  · intro q e r hq hqP hnot hstep hrP
    exact hnot ((hexact q e r hq hqP hstep).1 hrP)
  · intro q _ hqP
    exact hqP

end Machine
end SpannerClient
