import SpannerClient.Machine.Run

/-!
# Histories of runs, and what they refine

What is seen of a run from outside is its history: every event shows some
actions, which depend on the state it happens in.

* An invariant may speak of the state together with the history so far
  (`history_invariant`).
* A machine refines a transition relation if the states have an abstraction such
  that every step performs, between the abstractions of its two states, the
  actions it shows, among others that are hidden.  Then the history of every run
  is what is visible of a performance of the relation (`Refines.performs`), and
  has every property that all performances have.

Nothing here depends on what the machines compute.
-/

namespace SpannerClient
namespace Machine

universe u v w

variable {S : Type u}
variable {E : Type v}
variable {F : Type w}

section History

variable {step : S → E → Option S}

/-- The actions that the events of a run show, in order. -/
def history
    (step : S → E → Option S)
    (shows : S → E → List F) :
    S → List E → List F
  | _, [] => []
  | s, e :: es =>
      shows s e ++ (step s e).elim [] fun t => history step shows t es

@[simp] theorem history_nil
    (shows : S → E → List F)
    (s : S) :
    history step shows s [] = [] := by
  rfl

theorem history_cons
    {shows : S → E → List F}
    {s t : S} {e : E} {es : List E}
    (hstep : step s e = some t) :
    history step shows s (e :: es) =
      shows s e ++ history step shows t es := by
  simp [history, hstep]

/-- What depends on the events alone. -/
theorem history_of_events
    {f : E → List F}
    {s t : S} {es : List E}
    (hrun : run step s es = some t) :
    history step (fun _ e => f e) s es = es.flatMap f := by
  induction es generalizing s with
  | nil =>
      rfl
  | cons e es ih =>
      obtain ⟨q, hq, htail⟩ := run_cons_success hrun
      rw [history_cons hq, ih htail, List.flatMap_cons]

/-- The invariant rule for the state and its history, from a state that has the
history `h` behind it. -/
theorem history_invariant_from
    {shows : S → E → List F}
    {I : List F → S → Prop}
    (hstep :
      ∀ h s e t, I h s → step s e = some t → I (h ++ shows s e) t)
    {h : List F} {s t : S} {es : List E}
    (hs : I h s)
    (hrun : run step s es = some t) :
    I (h ++ history step shows s es) t := by
  induction es generalizing h s with
  | nil =>
      simp only [run_nil, Option.some.injEq] at hrun
      subst hrun
      simpa using hs
  | cons e es ih =>
      obtain ⟨q, hq, htail⟩ := run_cons_success hrun
      rw [history_cons hq, ← List.append_assoc]
      exact ih (hstep h s e q hs hq) htail

/-- The invariant rule for the state and its history. -/
theorem history_invariant
    {shows : S → E → List F}
    {I : List F → S → Prop}
    (hstep :
      ∀ h s e t, I h s → step s e = some t → I (h ++ shows s e) t)
    {s t : S} {es : List E}
    (hs : I [] s)
    (hrun : run step s es = some t) :
    I (history step shows s es) t :=
  history_invariant_from hstep hs hrun

end History

section Performances

variable {A : Type*}
variable {trans : A → F → A → Prop}

/-- The relation performs the actions one after the other. -/
inductive Performs
    (trans : A → F → A → Prop) :
    A → List F → A → Prop
  | nil (a : A) :
      Performs trans a [] a
  | cons {a b c : A} {f : F} {fs : List F}
      (first : trans a f b)
      (rest : Performs trans b fs c) :
      Performs trans a (f :: fs) c

theorem Performs.single
    {a b : A} {f : F}
    (h : trans a f b) :
    Performs trans a [f] b :=
  .cons h (.nil b)

theorem Performs.append
    {a b c : A} {fs gs : List F}
    (hfs : Performs trans a fs b)
    (hgs : Performs trans b gs c) :
    Performs trans a (fs ++ gs) c := by
  induction hfs with
  | nil a =>
      exact hgs
  | cons first rest ih =>
      exact .cons first (ih hgs)

/-- A performance of two parts passes a state between them. -/
theorem Performs.split
    {a c : A} {fs gs : List F}
    (h : Performs trans a (fs ++ gs) c) :
    ∃ b, Performs trans a fs b ∧ Performs trans b gs c := by
  induction fs generalizing a with
  | nil =>
      exact ⟨a, .nil a, h⟩
  | cons f fs ih =>
      cases h with
      | cons first rest =>
          obtain ⟨b, hfs, hgs⟩ := ih rest
          exact ⟨b, .cons first hfs, hgs⟩

/-- The invariant rule for performances. -/
theorem Performs.invariant
    {I : A → Prop} {fs : List F}
    (htrans : ∀ a f b, f ∈ fs → I a → trans a f b → I b)
    {a b : A}
    (ha : I a)
    (h : Performs trans a fs b) :
    I b := by
  induction h with
  | nil a =>
      exact ha
  | cons first rest ih =>
      refine ih (fun a f b hf => htrans a f b (List.mem_cons_of_mem _ hf)) ?_
      exact htrans _ _ _ List.mem_cons_self ha first

end Performances

section Refinement

variable {step : S → E → Option S}
variable {A : Type*} {G : Type*}

/-- The steps from states with `I`, by events that are allowed, perform what they
show, and hidden actions. -/
structure Refines
    (step : S → E → Option S) (I : S → Prop) (allowed : E → Prop)
    (trans : A → F → A → Prop) (visible : F → Option G)
    (abs : (s : S) → I s → A) (shows : S → E → List G) : Prop where
  keeps : ∀ s e t, I s → allowed e → step s e = some t → I t
  performs :
    ∀ s e t (hs : I s) (ht : I t), allowed e → step s e = some t →
      ∃ fs, Performs trans (abs s hs) fs (abs t ht) ∧
        fs.filterMap visible = shows s e

/-- The history of a run is what is visible of a performance. -/
theorem Refines.run_performs
    {I : S → Prop} {allowed : E → Prop}
    {trans : A → F → A → Prop} {visible : F → Option G}
    {abs : (s : S) → I s → A} {shows : S → E → List G}
    (h : Refines step I allowed trans visible abs shows)
    {s t : S} {es : List E}
    (hs : I s)
    (hallowed : ∀ e ∈ es, allowed e)
    (hrun : run step s es = some t) :
    ∃ (ht : I t) (fs : List F),
      Performs trans (abs s hs) fs (abs t ht) ∧
        fs.filterMap visible = history step shows s es := by
  induction es generalizing s with
  | nil =>
      simp only [run_nil, Option.some.injEq] at hrun
      subst hrun
      exact ⟨hs, [], .nil _, rfl⟩
  | cons e es ih =>
      obtain ⟨q, hq, htail⟩ := run_cons_success hrun
      have he := hallowed e List.mem_cons_self
      have hqI := h.keeps s e q hs he hq
      obtain ⟨fs, hfs, hshown⟩ := h.performs s e q hs hqI he hq
      obtain ⟨ht, gs, hgs, hrest⟩ :=
        ih hqI (fun e he => hallowed e (List.mem_cons_of_mem _ he)) htail
      refine ⟨ht, fs ++ gs, hfs.append hgs, ?_⟩
      rw [List.filterMap_append, hshown, hrest, history_cons hq]

end Refinement

end Machine
end SpannerClient
