import Mathlib.Logic.Function.Basic

/-! # Coroutines with exceptions

    A coroutine is a program that stops at every operation it waits for and is
    resumed with the outcome of that operation, an answer or an exception.  It is
    the free monad over a signature of operations, with exceptions inside: what an
    operation means is left to whoever runs the coroutine.

    * `Coro.andThen` hands the outcome of one coroutine, a value or an exception,
      to the next; `>>=`, `catch`, `finally` are instances of it.
    * `Coro.run` executes a coroutine alone, against a handler of its operations.
    * `Coro.translate` replaces every operation by a coroutine over another
      signature, and `run_translate` says that running commutes with it.
    * `Coro.Lens` is a part of a state, and `run_handler` says that a coroutine whose
      operations are of that part leaves the rest.

    The interleaved execution of many coroutines is in `Interleaving`. -/

namespace Coroutine

/-- The operations a coroutine may wait for, each with the type of its answer. -/
structure Signature where
  Op : Type
  Res : Op → Type

/-- The operations of `S` and those of `T`, side by side. -/
def Signature.sum (S T : Signature) : Signature where
  Op := S.Op ⊕ T.Op
  Res := Sum.elim S.Res T.Res

variable {S T : Signature} {ε α β γ σ : Type}

/-- A program over the operations of `S`, raising exceptions of type `ε` and
    returning an `α`. -/
inductive Coro (S : Signature) (ε α : Type) : Type where
  | ret (a : α)
  | raise (e : ε)
  | call (o : S.Op) (k : Except ε (S.Res o) → Coro S ε α)

namespace Coro

/-- Run `p`, then `k` on the outcome of `p`, whichever it is. -/
def andThen : Coro S ε α → (Except ε α → Coro S ε β) → Coro S ε β
  | .ret a, f => f (.ok a)
  | .raise e, f => f (.error e)
  | .call o k, f => .call o fun r => (k r).andThen f

/-- The coroutine that ends with the given outcome. -/
def ofExcept : Except ε α → Coro S ε α
  | .ok a => .ret a
  | .error e => .raise e

/-- A single operation. -/
def op (o : S.Op) : Coro S ε (S.Res o) := .call o ofExcept

instance : Monad (Coro S ε) where
  pure := .ret
  bind p f := p.andThen fun
    | .ok a => f a
    | .error e => .raise e

/-- `try: p` with the exceptions of `p` going to `h`. -/
def tryExcept (p : Coro S ε α) (h : ε → Coro S ε α) : Coro S ε α :=
  p.andThen fun
    | .ok a => .ret a
    | .error e => h e

/-- `try: p` with `f` run afterwards on either way out; an exception of `f`
    replaces the outcome of `p`. -/
def tryFinally (p : Coro S ε α) (f : Coro S ε Unit) : Coro S ε α :=
  p.andThen fun r => f.andThen fun
    | .ok _ => ofExcept r
    | .error e => .raise e

/-- Replace each operation of `S` by a coroutine over `T`. -/
def translate (f : (o : S.Op) → Coro T ε (S.Res o)) : Coro S ε α → Coro T ε α
  | .ret a => .ret a
  | .raise e => .raise e
  | .call o k => (f o).andThen fun r => (k r).translate f

/-- A coroutine over `S`, where the operations of `T` are available too. -/
def inl : Coro S ε α → Coro (S.sum T) ε α
  | .ret a => .ret a
  | .raise e => .raise e
  | .call o k => .call (S := S.sum T) (.inl o) fun r => (k r).inl

/-- A coroutine over `T`, where the operations of `S` are available too. -/
def inr : Coro T ε α → Coro (S.sum T) ε α
  | .ret a => .ret a
  | .raise e => .raise e
  | .call o k => .call (S := S.sum T) (.inr o) fun r => (k r).inr

/-! ## Laws of composition -/

/-- Going on with the outcome is doing nothing more. -/
theorem andThen_ofExcept (p : Coro S ε α) : p.andThen ofExcept = p := by
  induction p with
  | ret a => rfl
  | raise e => rfl
  | call o k ih => exact congrArg (call o) (funext ih)

/-- Three programs in a row, however they are bracketed. -/
theorem andThen_assoc (p : Coro S ε α) (f : Except ε α → Coro S ε β)
    (g : Except ε β → Coro S ε γ) :
    (p.andThen f).andThen g = p.andThen fun r => (f r).andThen g := by
  induction p with
  | ret a => rfl
  | raise e => rfl
  | call o k ih => exact congrArg (call o) (funext ih)

/-- **Translating composes**. -/
theorem translate_andThen (f : (o : S.Op) → Coro T ε (S.Res o)) (p : Coro S ε α)
    (g : Except ε α → Coro S ε β) :
    (p.andThen g).translate f = (p.translate f).andThen fun r => (g r).translate f := by
  induction p with
  | ret a => rfl
  | raise e => rfl
  | call o k ih =>
      show (f o).andThen (fun r => ((k r).andThen g).translate f) = _
      rw [funext ih]
      exact (andThen_assoc ..).symm

theorem translate_ofExcept (f : (o : S.Op) → Coro T ε (S.Res o)) (r : Except ε α) :
    (ofExcept r : Coro S ε α).translate f = ofExcept r := by
  cases r <;> rfl

theorem translate_op (f : (o : S.Op) → Coro T ε (S.Res o)) (o : S.Op) :
    (op o).translate f = f o := by
  show (f o).andThen (fun r => (ofExcept r).translate f) = _
  rw [funext (translate_ofExcept f)]
  exact andThen_ofExcept (f o)

/-- Translation goes into both halves of a sequence. -/
theorem translate_bind (f : (o : S.Op) → Coro T ε (S.Res o)) (p : Coro S ε α)
    (g : α → Coro S ε β) :
    (p >>= g).translate f = p.translate f >>= fun a => (g a).translate f := by
  refine (translate_andThen ..).trans (congrArg _ (funext fun r => ?_))
  cases r <;> rfl

/-- Translation goes into the handler. -/
theorem translate_tryExcept (f : (o : S.Op) → Coro T ε (S.Res o)) (p : Coro S ε α)
    (h : ε → Coro S ε α) :
    (p.tryExcept h).translate f = (p.translate f).tryExcept fun e => (h e).translate f := by
  refine (translate_andThen ..).trans (congrArg _ (funext fun r => ?_))
  cases r <;> rfl

/-- Translation goes into the last block. -/
theorem translate_tryFinally (f : (o : S.Op) → Coro T ε (S.Res o)) (p : Coro S ε α)
    (q : Coro S ε Unit) :
    (p.tryFinally q).translate f = (p.translate f).tryFinally (q.translate f) := by
  refine (translate_andThen ..).trans (congrArg _ (funext fun r => ?_))
  refine (translate_andThen ..).trans (congrArg _ (funext fun r' => ?_))
  cases r' with
  | ok u => exact translate_ofExcept f r
  | error e => rfl

/-- Composition does not see the other operations. -/
theorem inl_andThen (p : Coro S ε α) (f : Except ε α → Coro S ε β) :
    ((p.andThen f).inl : Coro (S.sum T) ε β) = p.inl.andThen fun r => (f r).inl := by
  induction p with
  | ret a => rfl
  | raise e => rfl
  | call o k ih => exact congrArg (call (S := S.sum T) (.inl o)) (funext ih)

/-! ## Running a coroutine alone -/

/-- What each operation does to a state, and how it comes out. -/
abbrev Handler (S : Signature) (ε σ : Type) : Type :=
  (o : S.Op) → σ → Except ε (S.Res o) × σ

/-- Execute a coroutine against a handler. -/
def run (H : Handler S ε σ) : Coro S ε α → σ → Except ε α × σ
  | .ret a, s => (.ok a, s)
  | .raise e, s => (.error e, s)
  | .call o k, s => (k (H o s).1).run H (H o s).2

variable (H : Handler S ε σ)

@[simp] theorem run_ret (a : α) (s : σ) : (ret a : Coro S ε α).run H s = (.ok a, s) := rfl

@[simp] theorem run_pure (a : α) (s : σ) : (pure a : Coro S ε α).run H s = (.ok a, s) := rfl

@[simp] theorem run_raise (e : ε) (s : σ) :
    (raise e : Coro S ε α).run H s = (.error e, s) := rfl

@[simp] theorem run_ofExcept (r : Except ε α) (s : σ) :
    (ofExcept r : Coro S ε α).run H s = (r, s) := by
  cases r <;> rfl

@[simp] theorem run_op (o : S.Op) (s : σ) : (op o : Coro S ε (S.Res o)).run H s = H o s := by
  show (ofExcept (H o s).1).run H (H o s).2 = H o s
  rw [run_ofExcept]

/-- **Running composes**: the second coroutine starts in the state the first one
    left, with its outcome. -/
theorem run_andThen (p : Coro S ε α) (f : Except ε α → Coro S ε β) (s : σ) :
    (p.andThen f).run H s = (f (p.run H s).1).run H (p.run H s).2 := by
  induction p generalizing s with
  | ret a => rfl
  | raise e => rfl
  | call o k ih => exact ih (H o s).1 (H o s).2

/-- A sequence stops at the exception of its first half. -/
theorem run_bind (p : Coro S ε α) (f : α → Coro S ε β) (s : σ) :
    (p >>= f).run H s = match p.run H s with
      | (.ok a, s') => (f a).run H s'
      | (.error e, s') => (.error e, s') := by
  show (p.andThen _).run H s = _
  rw [run_andThen]
  rcases p.run H s with ⟨_ | _, _⟩ <;> rfl

/-- The handler runs on from where the exception left the state. -/
theorem run_tryExcept (p : Coro S ε α) (h : ε → Coro S ε α) (s : σ) :
    (p.tryExcept h).run H s = match p.run H s with
      | (.ok a, s') => (.ok a, s')
      | (.error e, s') => (h e).run H s' := by
  rw [tryExcept, run_andThen]
  rcases p.run H s with ⟨_ | _, _⟩ <;> rfl

/-- The last block runs on either way, and an exception of its own replaces the outcome. -/
theorem run_tryFinally (p : Coro S ε α) (f : Coro S ε Unit) (s : σ) :
    (p.tryFinally f).run H s = match f.run H (p.run H s).2 with
      | (.ok _, s') => ((p.run H s).1, s')
      | (.error e, s') => (.error e, s') := by
  rw [tryFinally, run_andThen, run_andThen]
  rcases f.run H (p.run H s).2 with ⟨_ | _, _⟩
  · rfl
  · simp

/-- **Running a translated program** is running the program against the handler
    that executes the translations. -/
theorem run_translate (K : Handler T ε σ) (f : (o : S.Op) → Coro T ε (S.Res o))
    (p : Coro S ε α) (s : σ) :
    (p.translate f).run K s = p.run (fun o => (f o).run K) s := by
  induction p generalizing s with
  | ret a => rfl
  | raise e => rfl
  | call o k ih =>
      rw [translate, run_andThen]
      exact ih ((f o).run K s).1 ((f o).run K s).2

/-- A coroutine that does not know of `T` only sees the handler's left half. -/
theorem run_inl (K : Handler (S.sum T) ε σ) (p : Coro S ε α) (s : σ) :
    (p.inl : Coro (S.sum T) ε α).run K s = p.run (fun o => K (.inl o)) s := by
  induction p generalizing s with
  | ret a => rfl
  | raise e => rfl
  | call o k ih => exact ih (K (.inl o) s).1 (K (.inl o) s).2

/-! ## Programs and the operations they use -/

/-- All operations of the coroutine are in `A`. -/
def Uses (A : S.Op → Prop) : Coro S ε α → Prop
  | .ret _ => True
  | .raise _ => True
  | .call o k => A o ∧ ∀ r, (k r).Uses A

variable {A : S.Op → Prop} {B : T.Op → Prop}

theorem uses_pure (a : α) : (pure a : Coro S ε α).Uses A := trivial

theorem uses_raise (e : ε) : (raise e : Coro S ε α).Uses A := trivial

theorem uses_ofExcept (r : Except ε α) : (ofExcept r : Coro S ε α).Uses A := by
  cases r <;> trivial

theorem uses_op {o : S.Op} (h : A o) : (op o : Coro S ε (S.Res o)).Uses A :=
  ⟨h, uses_ofExcept⟩

theorem Uses.mono {A' : S.Op → Prop} {p : Coro S ε α} (hp : p.Uses A) (h : ∀ o, A o → A' o) :
    p.Uses A' := by
  induction p with
  | ret a => trivial
  | raise e => trivial
  | call o k ih => exact ⟨h o hp.1, fun r => ih r (hp.2 r)⟩

theorem Uses.andThen {p : Coro S ε α} {f : Except ε α → Coro S ε β} (hp : p.Uses A)
    (hf : ∀ r, (f r).Uses A) : (p.andThen f).Uses A := by
  induction p with
  | ret a => exact hf _
  | raise e => exact hf _
  | call o k ih => exact ⟨hp.1, fun r => ih r (hp.2 r)⟩

theorem Uses.bind {p : Coro S ε α} {f : α → Coro S ε β} (hp : p.Uses A)
    (hf : ∀ a, (f a).Uses A) : (p >>= f).Uses A :=
  hp.andThen fun r => match r with
    | .ok a => hf a
    | .error e => uses_raise e

theorem Uses.tryExcept {p : Coro S ε α} {h : ε → Coro S ε α} (hp : p.Uses A)
    (hh : ∀ e, (h e).Uses A) : (p.tryExcept h).Uses A :=
  hp.andThen fun r => match r with
    | .ok a => uses_pure a
    | .error e => hh e

theorem Uses.tryFinally {p : Coro S ε α} {f : Coro S ε Unit} (hp : p.Uses A)
    (hf : f.Uses A) : (p.tryFinally f).Uses A :=
  hp.andThen fun r => hf.andThen fun r' => match r' with
    | .ok _ => uses_ofExcept r
    | .error e => uses_raise e

/-- A translation uses what the translations of the operations use. -/
theorem Uses.translate {p : Coro S ε α} {f : (o : S.Op) → Coro T ε (S.Res o)} (hp : p.Uses A)
    (hf : ∀ o, A o → (f o).Uses B) : (p.translate f).Uses B := by
  induction p with
  | ret a => trivial
  | raise e => trivial
  | call o k ih => exact (hf o hp.1).andThen fun r => ih r (hp.2 r)

/-- **What the operations keep**, a program that uses no others keeps. -/
theorem Uses.run {p : Coro S ε α} {J : σ → Prop} (hp : p.Uses A)
    (hH : ∀ o s, A o → J s → J (H o s).2) {s : σ} (hs : J s) : J (p.run H s).2 := by
  induction p generalizing s with
  | ret a => exact hs
  | raise e => exact hs
  | call o k ih => exact ih _ (hp.2 _) (hH o s hp.1 hs)

/-- What every operation keeps, every program keeps. -/
theorem run_keeps (p : Coro S ε α) {J : σ → Prop} (hH : ∀ o s, J s → J (H o s).2) {s : σ}
    (hs : J s) : J (p.run H s).2 := by
  induction p generalizing s with
  | ret a => exact hs
  | raise e => exact hs
  | call o k ih => exact ih _ (hH o s hs)

/-! ## Total correctness of a coroutine that runs alone -/

section Yields

variable {H : Handler S ε σ}

/-- From `s` the coroutine ends without an exception, and as `Φ` demands. -/
def Yields (H : Handler S ε σ) (p : Coro S ε α) (s : σ) (Φ : α → σ → Prop) : Prop :=
  ∃ a s', p.run H s = (.ok a, s') ∧ Φ a s'

theorem yields_pure {a : α} {s : σ} {Φ : α → σ → Prop} (h : Φ a s) :
    (pure a : Coro S ε α).Yields H s Φ :=
  ⟨a, s, rfl, h⟩

theorem yields_op {o : S.Op} {s s' : σ} {a : S.Res o} {Φ : S.Res o → σ → Prop}
    (hop : H o s = (.ok a, s')) (h : Φ a s') : (op o : Coro S ε (S.Res o)).Yields H s Φ :=
  ⟨a, s', (run_op H o s).trans hop, h⟩

theorem Yields.mono {p : Coro S ε α} {s : σ} {Φ Ψ : α → σ → Prop} (hp : p.Yields H s Φ)
    (h : ∀ a s', Φ a s' → Ψ a s') : p.Yields H s Ψ := by
  obtain ⟨a, s', hrun, hΦ⟩ := hp
  exact ⟨a, s', hrun, h a s' hΦ⟩

/-- **Sequencing**: the second part starts from where the first ends. -/
theorem Yields.bind {p : Coro S ε α} {f : α → Coro S ε β} {s : σ} {Φ : α → σ → Prop}
    {Ψ : β → σ → Prop} (hp : p.Yields H s Φ) (hf : ∀ a s', Φ a s' → (f a).Yields H s' Ψ) :
    (p >>= f).Yields H s Ψ := by
  obtain ⟨a, s', hrun, hΦ⟩ := hp
  obtain ⟨b, s'', hrun', hΨ⟩ := hf a s' hΦ
  refine ⟨b, s'', ?_, hΨ⟩
  rw [run_bind, hrun]
  exact hrun'

/-- An exception handler that is not needed. -/
theorem Yields.tryExcept {p : Coro S ε α} {f : ε → Coro S ε α} {s : σ} {Φ : α → σ → Prop}
    (hp : p.Yields H s Φ) : (p.tryExcept f).Yields H s Φ := by
  obtain ⟨a, s', hrun, hΦ⟩ := hp
  refine ⟨a, s', ?_, hΦ⟩
  rw [run_tryExcept, hrun]

/-- What is done on the way out. -/
theorem Yields.tryFinally {p : Coro S ε α} {f : Coro S ε Unit} {s : σ} {Φ Ψ : α → σ → Prop}
    (hp : p.Yields H s Φ) (hf : ∀ a s', Φ a s' → f.Yields H s' fun _ s'' => Ψ a s'') :
    (p.tryFinally f).Yields H s Ψ := by
  obtain ⟨a, s', hrun, hΦ⟩ := hp
  obtain ⟨u, s'', hrun', hΨ⟩ := hf a s' hΦ
  refine ⟨a, s'', ?_, hΨ⟩
  rw [run_tryFinally, hrun, hrun']

/-- A program that does not know of the other operations. -/
theorem Yields.inl {K : Handler (S.sum T) ε σ} {p : Coro S ε α} {s : σ} {Φ : α → σ → Prop}
    (hp : p.Yields (fun o => K (.inl o)) s Φ) : (p.inl : Coro (S.sum T) ε α).Yields K s Φ := by
  obtain ⟨a, s', hrun, hΦ⟩ := hp
  exact ⟨a, s', (run_inl K p s).trans hrun, hΦ⟩

end Yields

/-! ## How a coroutine comes out -/

section Ends

variable {H : Handler S ε σ}

/-- From `s` the coroutine comes out, with a value or with an exception, as `Φ` demands. -/
def Ends (H : Handler S ε σ) (p : Coro S ε α) (s : σ) (Φ : Except ε α → σ → Prop) : Prop :=
  Φ (p.run H s).1 (p.run H s).2

/-- To yield is to end without an exception. -/
theorem Yields.ends {p : Coro S ε α} {s : σ} {Φ : α → σ → Prop} {Ψ : Except ε α → σ → Prop}
    (hp : p.Yields H s Φ) (h : ∀ a s', Φ a s' → Ψ (.ok a) s') : p.Ends H s Ψ := by
  obtain ⟨a, s', hrun, hΦ⟩ := hp
  unfold Ends
  rw [hrun]
  exact h a s' hΦ

/-- What comes after a part that returns. -/
theorem Yields.bind_ends {p : Coro S ε α} {f : α → Coro S ε β} {s : σ} {Φ : α → σ → Prop}
    {Ψ : Except ε β → σ → Prop} (hp : p.Yields H s Φ)
    (hf : ∀ a s', Φ a s' → (f a).Ends H s' Ψ) : (p >>= f).Ends H s Ψ := by
  obtain ⟨a, s', hrun, hΦ⟩ := hp
  have hends := hf a s' hΦ
  unfold Ends at hends ⊢
  rw [run_bind, hrun]
  exact hends

/-- A program over the left operations ends as it does among them alone. -/
theorem Ends.inl {K : Handler (S.sum T) ε σ} {p : Coro S ε α} {s : σ}
    {Φ : Except ε α → σ → Prop} (hp : p.Ends (fun o => K (.inl o)) s Φ) :
    (p.inl : Coro (S.sum T) ε α).Ends K s Φ := by
  unfold Ends
  rw [run_inl]
  exact hp

/-- A value that is wrapped up. -/
theorem Ends.map {p : Coro S ε α} {g : α → β} {s : σ} {Φ : Except ε β → σ → Prop}
    (hp : p.Ends H s fun r s' => Φ (r.map g) s') : (p >>= fun a => pure (g a)).Ends H s Φ := by
  unfold Ends at hp ⊢
  rw [run_bind]
  rcases hrun : p.run H s with ⟨e | a, s'⟩
  · rwa [hrun] at hp
  · rwa [hrun] at hp

end Ends

/-! ## A part of the state -/

section Part

variable {τ : Type}

/-- A part, of type `σ`, of the states of type `τ`. -/
structure Lens (τ σ : Type) where
  get : τ → σ
  put : σ → τ → τ
  get_put : ∀ s t, get (put s t) = s
  put_get : ∀ t, put (get t) t = t
  put_put : ∀ s s' t, put s' (put s t) = put s' t

/-- A handler of the part, as one of the whole. -/
def Lens.handler (l : Lens τ σ) (H : Handler S ε σ) : Handler S ε τ := fun o t =>
  ((H o (l.get t)).1, l.put (H o (l.get t)).2 t)

/-- **Running on a part of the state** leaves the rest of it. -/
theorem run_handler (l : Lens τ σ) (H : Handler S ε σ) (p : Coro S ε α) (t : τ) :
    p.run (l.handler H) t = ((p.run H (l.get t)).1, l.put (p.run H (l.get t)).2 t) := by
  induction p generalizing t with
  | ret a => exact congrArg (Prod.mk _) (l.put_get t).symm
  | raise e => exact congrArg (Prod.mk _) (l.put_get t).symm
  | call o k ih =>
      show ((k (H o (l.get t)).1).run (l.handler H) (l.put (H o (l.get t)).2 t)) = _
      rw [ih, l.get_put, l.put_put]
      rfl

/-- A program over a part of the state yields the same over the whole. -/
theorem Yields.handler (l : Lens τ σ) {H : Handler S ε σ} {p : Coro S ε α} {t : τ}
    {Φ : α → σ → Prop} (hp : p.Yields H (l.get t) Φ) :
    p.Yields (l.handler H) t fun a t' => ∃ s, Φ a s ∧ t' = l.put s t := by
  obtain ⟨a, s, hrun, hΦ⟩ := hp
  refine ⟨a, l.put s t, ?_, s, hΦ, rfl⟩
  rw [run_handler, hrun]

end Part

end Coro

end Coroutine
