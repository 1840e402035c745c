import Mathlib.Tactic.Common

set_option relaxedAutoImplicit false
set_option autoImplicit false

/-!
# Running operations

An operation that may change a state and may fail is followed step by step: once it is known what
the first step comes to, the run goes on from there.

## Main definitions

* `Concordance.Operation.after` — the state after an operation, whatever came of it.
* `Concordance.Operation.Gives` — an operation succeeds with an answer.
* `Concordance.Operation.observe`, `onPart` — a question about the state, and an operation on a part
  of it.
* `Concordance.Operation.Preserves` — an operation keeps a property, whatever comes of it.
* `Concordance.Operation.Avoids` — an operation does not fail with a certain error.
* `Concordance.Operation.Ensures` — an operation succeeds and leads to a property.
* `Concordance.Operation.Parallel` — an operation has one answer in states that are related, and
  leads to related states.

## Main results

* `Concordance.Operation.bind_ok`, `bind_error` — one step, and what follows it.
* `Concordance.Operation.exists_of_bind_ok`, `bind_eq_ok_iff` — a run or a question that succeeds
  has taken its first step.
* `Concordance.Operation.mapM_eq_pure`, `mapM_ok` — the answers to a list of questions.
* `Concordance.Operation.after_observe`, `after_onPart` — what questions and operations on a part
  lead to.
* `Concordance.Operation.Preserves.bind`, `Avoids.bind`, `Ensures.bind`, `Parallel.bind` — what
  holds step by step holds of a run.

## Design

The files of a store, the store of an engine and the like are parts of a state, and each has its own
definition of what it is to work on it. All of them are `onPart` at their own part, and all
questions are `observe`, so that what such operations keep, avoid and ensure is said once.
-/

namespace Concordance.Operation

variable {ε σ α β : Type} {op : EStateM ε σ α} {s s' : σ}

/-- After a step that succeeds the run goes on from its answer and state. -/
lemma bind_ok {a : α} (h : op s = .ok a s') (f : α → EStateM ε σ β) : (op >>= f) s = f a s' := by
  simp [bind, EStateM.bind, h]

/-- A step that fails ends the run. -/
lemma bind_error {e : ε} (h : op s = .error e s') (f : α → EStateM ε σ β) :
    (op >>= f) s = .error e s' := by
  simp [bind, EStateM.bind, h]

/-- A run that succeeds has taken its first step, and succeeds from where it led. -/
lemma exists_of_bind_ok {f : α → EStateM ε σ β} {b : β} (h : (op >>= f) s = .ok b s') :
    ∃ a s₁, op s = .ok a s₁ ∧ f a s₁ = .ok b s' := by
  cases hop : op s with
  | ok a s₁ => exact ⟨a, s₁, rfl, bind_ok hop f ▸ h⟩
  | error e s₁ =>
    rw [bind_error hop] at h
    cases h

/-- A step that is taken only under a condition is one step of the run. -/
lemma ite_bind (c : Prop) [Decidable c] (op : EStateM ε σ Unit) (f : Unit → EStateM ε σ β) :
    (if c then op >>= f else f ()) = (if c then op else pure ()) >>= f := by
  split <;> rfl

/-- After a step that is taken only under a condition the run goes on from where it led. -/
lemma ite_bind_ok {c : Prop} [Decidable c] {op : EStateM ε σ Unit}
    (h : (if c then op else pure ()) s = .ok () s') (f : Unit → EStateM ε σ β) :
    (if c then op >>= f else f ()) s = f () s' := by
  rw [ite_bind]
  exact bind_ok h f

/-- A run that looks at its state goes on with it. -/
lemma get_bind (f : σ → EStateM ε σ β) (s : σ) : (get >>= f) s = f s s := rfl

/-- The state after an operation, whatever came of it. -/
def after (op : EStateM ε σ α) (s : σ) : σ :=
  match op s with
  | .ok _ s' => s'
  | .error _ s' => s'

/-- The state after an operation that succeeds. -/
lemma after_ok {a : α} (h : op s = .ok a s') : after op s = s' := by
  simp [after, h]

/-- The state after an operation that fails. -/
lemma after_error {e : ε} (h : op s = .error e s') : after op s = s' := by
  simp [after, h]

/-- An operation succeeds with an answer. -/
def Gives (op : EStateM ε σ α) (s : σ) (a : α) : Prop := ∃ s', op s = .ok a s'

instance [DecidableEq α] (op : EStateM ε σ α) (s : σ) (a : α) : Decidable (Gives op s a) :=
  match h : op s with
  | .ok b s' =>
    if heq : b = a then .isTrue ⟨s', heq ▸ h⟩
    else .isFalse fun ⟨_, h'⟩ => by
      cases h.symm.trans h'
      exact heq rfl
  | .error _ _ => .isFalse fun ⟨_, h'⟩ => by cases h.symm.trans h'

/-- An operation has one answer. -/
lemma Gives.eq {a b : α} (ha : Gives op s a) (hb : Gives op s b) : a = b := by
  obtain ⟨_, ha⟩ := ha
  obtain ⟨_, hb⟩ := hb
  cases ha.symm.trans hb
  rfl

/-- An operation that succeeds leads to the state after it. -/
lemma Gives.eq_after {a : α} (h : Gives op s a) : op s = .ok a (after op s) := by
  obtain ⟨s', hrun⟩ := h
  rw [after_ok hrun]
  exact hrun

/-- A question that builds on another one has an answer iff both have. -/
lemma bind_eq_ok_iff {question : Except ε α} {f : α → Except ε β} {b : β} :
    question >>= f = .ok b ↔ ∃ a, question = .ok a ∧ f a = .ok b := by
  cases question <;> simp [bind, Except.bind]

/-- A list of steps that all do nothing but answer has the list of the answers. -/
lemma mapM_eq_pure {m : Type → Type} [Monad m] [LawfulMonad m] {f : α → m β} {g : α → β}
    {l : List α} (h : ∀ a ∈ l, f a = pure (g a)) : l.mapM f = pure (l.map g) := by
  induction l with
  | nil => exact List.mapM_nil
  | cons a l ih =>
    rw [List.mapM_cons, h a List.mem_cons_self, ih fun b hb => h b (List.mem_cons_of_mem _ hb),
      pure_bind, pure_bind, List.map_cons]

/-- A list of questions that all have answers has the list of the answers. -/
lemma mapM_ok {f : α → Except ε β} {g : α → β} {l : List α} (h : ∀ a ∈ l, f a = .ok (g a)) :
    l.mapM f = .ok (l.map g) :=
  mapM_eq_pure h

/-! ## Questions and operations on a part of the state -/

section Part

variable {τ : Type} {part : σ → τ} {put : σ → τ → σ} {inner : EStateM ε τ α}
  {f : σ → Except ε α}

/-- A question about the state, which stays as it is. -/
def observe (f : σ → Except ε α) : EStateM ε σ α := fun s =>
  match f s with
  | .ok a => .ok a s
  | .error e => .error e s

/-- A question that has an answer. -/
lemma observe_ok {a : α} (h : f s = .ok a) : observe f s = .ok a s := by
  simp [observe, h]

/-- A question that has none. -/
lemma observe_error {e : ε} (h : f s = .error e) : observe f s = .error e s := by
  simp [observe, h]

/-- A question that has been answered had the answer, and the state is the same. -/
lemma eq_of_observe {a : α} (h : observe f s = .ok a s') : f s = .ok a ∧ s' = s := by
  cases hf : f s with
  | ok b =>
    rw [observe_ok hf] at h
    cases h
    exact ⟨rfl, rfl⟩
  | error e =>
    rw [observe_error hf] at h
    cases h

/-- A question changes nothing. -/
lemma after_observe (f : σ → Except ε α) (s : σ) : after (observe f) s = s := by
  unfold after observe
  cases f s <;> rfl

/-- An operation on a part of the state, which is put back whatever comes of it. -/
def onPart (part : σ → τ) (put : σ → τ → σ) (inner : EStateM ε τ α) : EStateM ε σ α := fun s =>
  match inner (part s) with
  | .ok a t => .ok a (put s t)
  | .error e t => .error e (put s t)

/-- An operation that succeeds on the part succeeds. -/
lemma onPart_ok {a : α} {t : τ} (h : inner (part s) = .ok a t) :
    onPart part put inner s = .ok a (put s t) := by
  simp [onPart, h]

/-- An operation that fails on the part fails. -/
lemma onPart_error {e : ε} {t : τ} (h : inner (part s) = .error e t) :
    onPart part put inner s = .error e (put s t) := by
  simp [onPart, h]

/-- After an operation on the part there is in its place what it led to. -/
lemma after_onPart (inner : EStateM ε τ α) (s : σ) :
    after (onPart part put inner) s = put s (after inner (part s)) := by
  unfold after onPart
  cases inner (part s) <;> rfl

/-- An operation that has succeeded did so on the part. -/
lemma exists_of_onPart_ok {a : α} (h : onPart part put inner s = .ok a s') :
    ∃ t, inner (part s) = .ok a t ∧ s' = put s t := by
  cases hrun : inner (part s) with
  | ok b t =>
    rw [onPart_ok hrun] at h
    cases h
    exact ⟨t, rfl, rfl⟩
  | error e t =>
    rw [onPart_error hrun] at h
    cases h

/-- An operation that has failed did so on the part. -/
lemma exists_of_onPart_error {e : ε} (h : onPart part put inner s = .error e s') :
    ∃ t, inner (part s) = .error e t ∧ s' = put s t := by
  cases hrun : inner (part s) with
  | ok b t =>
    rw [onPart_ok hrun] at h
    cases h
  | error e' t =>
    rw [onPart_error hrun] at h
    cases h
    exact ⟨t, rfl, rfl⟩

end Part

/-! ## What operations keep, avoid and ensure -/

/-- What holds of doing nothing and of two steps if it holds of each holds of a list of steps. -/
lemma forM_induction {C : EStateM ε σ PUnit → Prop} (hpure : C (pure PUnit.unit))
    (hbind : ∀ first rest : EStateM ε σ PUnit, C first → C rest → C (first >>= fun _ => rest))
    {step : β → EStateM ε σ PUnit} (h : ∀ b, C (step b)) (items : List β) :
    C (items.forM step) := by
  induction items with
  | nil => exact hpure
  | cons b items ih => exact hbind _ _ (h b) ih

/-- An operation keeps a property of the state, whatever comes of it. -/
def Preserves (P : σ → Prop) (op : EStateM ε σ α) : Prop := ∀ s, P s → P (after op s)

section Preserves

variable {P : σ → Prop}

/-- To do nothing keeps everything. -/
lemma preserves_pure (a : α) : Preserves P (pure a : EStateM ε σ α) := fun _ h => h

/-- A change of the state keeps what its function keeps. -/
lemma preserves_modify {f : σ → σ} (h : ∀ s, P s → P (f s)) :
    Preserves P (modify f : EStateM ε σ PUnit) := h

/-- What depends on the state it starts in keeps what it keeps in each. -/
lemma preserves_get_bind {f : σ → EStateM ε σ α} (h : ∀ s, P s → Preserves P (f s)) :
    Preserves P (get >>= f) := fun s hs => h s hs s hs

/-- One operation after the other. -/
lemma Preserves.bind {f : α → EStateM ε σ β} (h : Preserves P op)
    (hf : ∀ a, Preserves P (f a)) : Preserves P (op >>= f) := by
  intro s hs
  have hfirst := h s hs
  cases hrun : op s with
  | ok a s₁ =>
    rw [after_ok hrun] at hfirst
    unfold after
    rw [bind_ok hrun]
    exact hf a s₁ hfirst
  | error e s₁ =>
    rw [after_error hrun] at hfirst
    rw [after_error (bind_error hrun f)]
    exact hfirst

/-- A step that is taken only under a condition. -/
lemma Preserves.ite_bind {op : EStateM ε σ Unit} (h : Preserves P op) (c : Prop) [Decidable c]
    {f : Unit → EStateM ε σ β} (hf : Preserves P (f ())) :
    Preserves P (if c then op >>= f else f ()) := by
  split
  · exact h.bind fun _ => hf
  · exact hf

/-- A list of operations keeps what each of them keeps. -/
lemma Preserves.forM {op : β → EStateM ε σ PUnit} (h : ∀ b, Preserves P (op b)) (items : List β) :
    Preserves P (items.forM op) :=
  forM_induction (preserves_pure PUnit.unit) (fun _ _ hfirst hrest => hfirst.bind fun _ => hrest) h
    items

/-- A question keeps everything. -/
lemma preserves_observe (f : σ → Except ε α) : Preserves P (observe f) := by
  intro s hs
  rwa [after_observe]

/-- An operation on a part of the state keeps what does not depend on the part. -/
lemma preserves_onPart {τ : Type} {part : σ → τ} {put : σ → τ → σ} (h : ∀ s t, P s → P (put s t))
    (inner : EStateM ε τ α) : Preserves P (onPart part put inner) := by
  intro s hs
  rw [after_onPart]
  exact h s _ hs

end Preserves

/-- An operation does not fail with a certain error. -/
def Avoids (e : ε) (op : EStateM ε σ α) : Prop := ∀ s s', op s ≠ .error e s'

section Avoids

variable {e : ε}

/-- To do nothing does not fail. -/
lemma avoids_pure (a : α) : Avoids e (pure a : EStateM ε σ α) := fun _ _ h => by cases h

/-- One operation after the other. -/
lemma Avoids.bind {f : α → EStateM ε σ β} (h : Avoids e op) (hf : ∀ a, Avoids e (f a)) :
    Avoids e (op >>= f) := by
  intro s s' hrun
  cases hop : op s with
  | ok a s₁ =>
    rw [bind_ok hop] at hrun
    exact hf a s₁ s' hrun
  | error e' s₁ =>
    rw [bind_error hop] at hrun
    cases hrun
    exact h _ _ hop

/-- A list of operations avoids an error that each of them avoids. -/
lemma Avoids.forM {op : β → EStateM ε σ PUnit} (h : ∀ b, Avoids e (op b)) (items : List β) :
    Avoids e (items.forM op) :=
  forM_induction (avoids_pure PUnit.unit) (fun _ _ hfirst hrest => hfirst.bind fun _ => hrest) h
    items

/-- A question fails with the error that it has for an answer. -/
lemma avoids_observe {f : σ → Except ε α} (h : ∀ s, f s ≠ .error e) : Avoids e (observe f) := by
  intro s s' hrun
  cases hf : f s with
  | ok a =>
    rw [observe_ok hf] at hrun
    cases hrun
  | error e' =>
    rw [observe_error hf] at hrun
    cases hrun
    exact h s hf

/-- An operation on a part of the state avoids an error that it avoids there. -/
lemma Avoids.onPart {τ : Type} {part : σ → τ} {put : σ → τ → σ} {inner : EStateM ε τ α}
    (h : Avoids e inner) : Avoids e (onPart part put inner) := by
  intro s s' hrun
  obtain ⟨t, hinner, -⟩ := exists_of_onPart_error hrun
  exact h _ _ hinner

end Avoids

/-- From every state with a property an operation succeeds, and leads to an answer and a state with
another one. -/
def Ensures (P : σ → Prop) (op : EStateM ε σ α) (Q : α → σ → Prop) : Prop :=
  ∀ s, P s → ∃ a s', op s = .ok a s' ∧ Q a s'

/-- One operation after the other. -/
lemma Ensures.bind {P : σ → Prop} {Q : α → σ → Prop} {R : β → σ → Prop} {f : α → EStateM ε σ β}
    (h : Ensures P op Q) (hf : ∀ a, Ensures (Q a) (f a) R) : Ensures P (op >>= f) R := by
  intro s hs
  obtain ⟨a, s₁, hrun, hs₁⟩ := h s hs
  obtain ⟨b, s₂, hrun', hs₂⟩ := hf a s₁ hs₁
  exact ⟨b, s₂, (bind_ok hrun f).trans hrun', hs₂⟩

/-- Operations one after the other, where what is needed depends on what is still to be done. -/
lemma Ensures.forM {P : List β → σ → Prop} {op : β → EStateM ε σ PUnit}
    (h : ∀ b rest, Ensures (P (b :: rest)) (op b) fun _ => P rest) (items : List β) :
    Ensures (P items) (items.forM op) fun _ => P [] := by
  induction items with
  | nil => exact fun s hs => ⟨PUnit.unit, s, rfl, hs⟩
  | cons b items ih => exact (h b items).bind fun _ => ih

/-- An operation on a part of the state leads to what it ensures there. -/
lemma Ensures.onPart {τ : Type} {part : σ → τ} {put : σ → τ → σ} {F : τ → Prop} {G : α → τ → Prop}
    {inner : EStateM ε τ α} (h : Ensures F inner G) (hput : ∀ s t, part (put s t) = t) :
    Ensures (fun s => F (part s)) (onPart part put inner) fun a s => G a (part s) := by
  intro s hs
  obtain ⟨a, t, hrun, ht⟩ := h (part s) hs
  have hpart : G a (part (put s t)) := by rwa [hput]
  exact ⟨a, put s t, onPart_ok hrun, hpart⟩

/-! ## Runs side by side -/

/-- The answer of an operation, if it succeeds. -/
def answer? (op : EStateM ε σ α) (s : σ) : Option α :=
  match op s with
  | .ok a _ => some a
  | .error _ _ => none

/-- An operation that succeeds has its answer. -/
lemma answer?_ok {a : α} (h : op s = .ok a s') : answer? op s = some a := by
  simp [answer?, h]

/-- An operation that fails has none. -/
lemma answer?_error {e : ε} (h : op s = .error e s') : answer? op s = none := by
  simp [answer?, h]

/-- An operation that has an answer succeeds with it. -/
lemma gives_of_answer? {a : α} (h : answer? op s = some a) : Gives op s a := by
  cases hrun : op s with
  | ok b s' =>
    rw [answer?_ok hrun] at h
    cases h
    exact ⟨s', hrun⟩
  | error e s' =>
    rw [answer?_error hrun] at h
    cases h

/-- In states that are related an operation succeeds or fails alike, with one answer, and leads to
states that are related. -/
def Parallel (R : σ → σ → Prop) (op : EStateM ε σ α) : Prop :=
  ∀ s t, R s t → answer? op s = answer? op t ∧ R (after op s) (after op t)

section Parallel

variable {R : σ → σ → Prop}

/-- To do nothing leads to related states. -/
lemma parallel_pure (a : α) : Parallel R (pure a : EStateM ε σ α) := fun _ _ h => ⟨rfl, h⟩

/-- A question that has one answer in related states. -/
lemma parallel_observe {f : σ → Except ε α} (h : ∀ s t, R s t → f s = f t) :
    Parallel R (observe f) := by
  intro s t hR
  have hsame := h s t hR
  refine ⟨?_, by rwa [after_observe, after_observe]⟩
  unfold answer? observe
  rw [hsame]
  cases f t <;> rfl

/-- One operation after the other. Only answers that the first one has count for the second.

**Proof sketch.** If the first operation succeeds in one state it does so in the other, with the
same answer, and leads to related states from which the second goes on. If it fails in one state it
fails alike in the other. -/
lemma Parallel.bind {f : α → EStateM ε σ β} (h : Parallel R op)
    (hf : ∀ a, (∃ s t, R s t ∧ answer? op s = some a) → Parallel R (f a)) :
    Parallel R (op >>= f) := by
  intro s t hR
  obtain ⟨hanswer, hafter⟩ := h s t hR
  cases hs : op s with
  | ok a s' =>
    cases ht : op t with
    | ok b t' =>
      rw [answer?_ok hs, answer?_ok ht] at hanswer
      cases hanswer
      rw [after_ok hs, after_ok ht] at hafter
      have hrest := hf a ⟨s, t, hR, answer?_ok hs⟩ s' t' hafter
      unfold answer? after at hrest ⊢
      rw [bind_ok hs, bind_ok ht]
      exact hrest
    | error e t' =>
      rw [answer?_ok hs, answer?_error ht] at hanswer
      cases hanswer
  | error e s' =>
    cases ht : op t with
    | ok b t' =>
      rw [answer?_error hs, answer?_ok ht] at hanswer
      cases hanswer
    | error e' t' =>
      rw [after_error hs, after_error ht] at hafter
      have hfirst := bind_error hs f
      have hsecond := bind_error ht f
      refine ⟨by rw [answer?_error hfirst, answer?_error hsecond], ?_⟩
      rwa [after_error hfirst, after_error hsecond]

end Parallel

end Concordance.Operation
