import XdmServer.Coroutine

/-! # Protocols: a program logic for coroutines

    A protocol gives a coroutine a ghost state and says, in each ghost state, which
    operations it may invoke and in which ghost state each outcome leaves it.  While
    an operation is under way the task has a ghost state of another kind (`Held`).

    `Protocol.wp p Q g` says that `p`, started in the ghost state `g`, obeys the
    protocol and ends as `Q` demands.  The choice of `Held` at an invocation is the
    prover's, the outcome and the ghost state after it are the world's.

    The rule for many coroutines that each obey a protocol is in `Interleaving`. -/

namespace Coroutine

variable {S T : Signature} {ε α β : Type}

/-- Ghost states, and what an operation may do to them. -/
structure Protocol (S : Signature) (ε : Type) where
  Ghost : Type
  Held : Type
  invoke : Ghost → S.Op → Held → Prop
  answer : Held → (o : S.Op) → Except ε (S.Res o) → Ghost → Prop

variable (P : Protocol S ε)

/-- The coroutine obeys the protocol from `g` on, and ends as `Q` demands. -/
def Protocol.wp : Coro S ε α → (Except ε α → P.Ghost → Prop) → P.Ghost → Prop
  | .ret a, Q, g => Q (.ok a) g
  | .raise e, Q, g => Q (.error e) g
  | .call o k, Q, g =>
      ∃ h, P.invoke g o h ∧ ∀ r g', P.answer h o r g' → Protocol.wp (k r) Q g'

namespace Protocol

@[simp] theorem wp_ret (a : α) (Q : Except ε α → P.Ghost → Prop) (g : P.Ghost) :
    P.wp (.ret a) Q g ↔ Q (.ok a) g := Iff.rfl

@[simp] theorem wp_pure (a : α) (Q : Except ε α → P.Ghost → Prop) (g : P.Ghost) :
    P.wp (pure a : Coro S ε α) Q g ↔ Q (.ok a) g := Iff.rfl

@[simp] theorem wp_raise (e : ε) (Q : Except ε α → P.Ghost → Prop) (g : P.Ghost) :
    P.wp (.raise e) Q g ↔ Q (.error e) g := Iff.rfl

/-- An operation: the program may ask for it, and goes on from any answer. -/
theorem wp_call (o : S.Op) (k : Except ε (S.Res o) → Coro S ε α)
    (Q : Except ε α → P.Ghost → Prop) (g : P.Ghost) :
    P.wp (.call o k) Q g ↔
      ∃ h, P.invoke g o h ∧ ∀ r g', P.answer h o r g' → P.wp (k r) Q g' := Iff.rfl

@[simp] theorem wp_ofExcept (r : Except ε α) (Q : Except ε α → P.Ghost → Prop)
    (g : P.Ghost) : P.wp (Coro.ofExcept r) Q g ↔ Q r g := by
  cases r <;> exact Iff.rfl

theorem wp_op (o : S.Op) (Q : Except ε (S.Res o) → P.Ghost → Prop) (g : P.Ghost) :
    P.wp (Coro.op o) Q g ↔
      ∃ h, P.invoke g o h ∧ ∀ r g', P.answer h o r g' → Q r g' := by
  simp only [Coro.op, wp_call, wp_ofExcept]

variable {P}

/-- **Consequence**: a weaker end condition is met as well. -/
theorem wp_mono {p : Coro S ε α} {Q Q' : Except ε α → P.Ghost → Prop} {g : P.Ghost}
    (h : P.wp p Q g) (hQ : ∀ r g', Q r g' → Q' r g') : P.wp p Q' g := by
  induction p generalizing g with
  | ret a => exact hQ _ _ h
  | raise e => exact hQ _ _ h
  | call o k ih =>
      obtain ⟨m, hinv, hk⟩ := h
      exact ⟨m, hinv, fun r g' hans => ih r (hk r g' hans)⟩

/-- **Composition**: the second coroutine is judged from wherever the first ends. -/
theorem wp_andThen (p : Coro S ε α) (f : Except ε α → Coro S ε β)
    (Q : Except ε β → P.Ghost → Prop) (g : P.Ghost) :
    P.wp (p.andThen f) Q g ↔ P.wp p (fun r g' => P.wp (f r) Q g') g := by
  induction p generalizing g with
  | ret a => exact Iff.rfl
  | raise e => exact Iff.rfl
  | call o k ih =>
      constructor
      · rintro ⟨m, hinv, hk⟩
        exact ⟨m, hinv, fun r g' hans => (ih r g').mp (hk r g' hans)⟩
      · rintro ⟨m, hinv, hk⟩
        exact ⟨m, hinv, fun r g' hans => (ih r g').mpr (hk r g' hans)⟩

/-- Sequencing two steps: a value goes on, an exception ends both. -/
theorem wp_bind (p : Coro S ε α) (f : α → Coro S ε β) (Q : Except ε β → P.Ghost → Prop)
    (g : P.Ghost) :
    P.wp (p >>= f) Q g ↔ P.wp p (fun r g' => match r with
      | .ok a => P.wp (f a) Q g'
      | .error e => Q (.error e) g') g := by
  show P.wp (p.andThen _) Q g ↔ _
  rw [wp_andThen]
  constructor <;> intro h <;> refine wp_mono h ?_ <;> rintro (e | a) g' hq <;> exact hq

/-- A result is made of another with no operation in between. -/
theorem wp_then {p : Coro S ε α} {f : α → Coro S ε β} {Q : P.Ghost → Prop} {g : P.Ghost}
    (hp : P.wp p (fun _ g' => Q g') g) (hf : ∀ a, (∃ b, f a = .ret b) ∨ ∃ e, f a = .raise e) :
    P.wp (p >>= f) (fun _ g' => Q g') g := by
  refine (wp_bind ..).mpr (wp_mono hp ?_)
  rintro (e | a) g' hq
  · exact hq
  · obtain ⟨b, hb⟩ | ⟨e, he⟩ := hf a
    · simp only [hb]
      exact hq
    · simp only [he]
      exact hq

/-- The handler goes on from where the exception left. -/
theorem wp_tryExcept (p : Coro S ε α) (f : ε → Coro S ε α)
    (Q : Except ε α → P.Ghost → Prop) (g : P.Ghost) :
    P.wp (p.tryExcept f) Q g ↔ P.wp p (fun r g' => match r with
      | .ok a => Q (.ok a) g'
      | .error e => P.wp (f e) Q g') g := by
  rw [Coro.tryExcept, wp_andThen]
  constructor <;> intro h <;> refine wp_mono h ?_ <;> rintro (e | a) g' hq <;> exact hq

/-- The last block runs on either way, and an exception of its own replaces the outcome. -/
theorem wp_tryFinally (p : Coro S ε α) (f : Coro S ε Unit)
    (Q : Except ε α → P.Ghost → Prop) (g : P.Ghost) :
    P.wp (p.tryFinally f) Q g ↔ P.wp p (fun r g' => P.wp f (fun r' g'' => match r' with
      | .ok _ => Q r g''
      | .error e => Q (.error e) g'') g') g := by
  rw [Coro.tryFinally, wp_andThen]
  constructor <;> intro h <;> refine wp_mono h ?_ <;> intro r g' hq
  · rw [wp_andThen] at hq
    refine wp_mono hq ?_
    rintro (e | a) g'' hq'
    · exact hq'
    · exact (wp_ofExcept P r Q g'').mp hq'
  · rw [wp_andThen]
    refine wp_mono hq ?_
    rintro (e | a) g'' hq'
    · exact hq'
    · exact (wp_ofExcept P r Q g'').mpr hq'

/-! ## Programs that stay where they are -/

/-- From every ghost state in `J` the coroutine obeys the protocol and ends in `J`. -/
def Maintains (P : Protocol S ε) (J : P.Ghost → Prop) (p : Coro S ε α) : Prop :=
  ∀ g, J g → P.wp p (fun _ g' => J g') g

theorem maintains_ret {J : P.Ghost → Prop} (a : α) : P.Maintains J (.ret a : Coro S ε α) :=
  fun _ h => h

theorem maintains_raise {J : P.Ghost → Prop} (e : ε) :
    P.Maintains J (.raise e : Coro S ε α) :=
  fun _ h => h

/-- An operation that may be asked for from `J`, and every answer to which leads back to it. -/
theorem maintains_op {J : P.Ghost → Prop} {o : S.Op}
    (h : ∀ g, J g → ∃ m, P.invoke g o m ∧ ∀ r g', P.answer m o r g' → J g') :
    P.Maintains J (.op o : Coro S ε (S.Res o)) :=
  fun g hg => (wp_op ..).mpr (h g hg)

theorem Maintains.andThen {J : P.Ghost → Prop} {p : Coro S ε α} {f : Except ε α → Coro S ε β}
    (hp : P.Maintains J p) (hf : ∀ r, P.Maintains J (f r)) : P.Maintains J (p.andThen f) :=
  fun g hg => (wp_andThen ..).mpr (wp_mono (hp g hg) fun r g' h => hf r g' h)

theorem Maintains.bind {J : P.Ghost → Prop} {p : Coro S ε α} {f : α → Coro S ε β}
    (hp : P.Maintains J p) (hf : ∀ a, P.Maintains J (f a)) : P.Maintains J (p >>= f) :=
  hp.andThen fun r => match r with
    | .ok a => hf a
    | .error e => maintains_raise e

theorem Maintains.tryExcept {J : P.Ghost → Prop} {p : Coro S ε α} {f : ε → Coro S ε α}
    (hp : P.Maintains J p) (hf : ∀ e, P.Maintains J (f e)) : P.Maintains J (p.tryExcept f) :=
  hp.andThen fun r => match r with
    | .ok a => maintains_ret a
    | .error e => hf e

/-- A program stays in `J` if the translations of its operations do. -/
theorem Maintains.translate {P : Protocol T ε} {J : P.Ghost → Prop}
    {f : (o : S.Op) → Coro T ε (S.Res o)} (h : ∀ o, P.Maintains J (f o)) (p : Coro S ε α) :
    P.Maintains J (p.translate f) := by
  induction p with
  | ret a => exact maintains_ret a
  | raise e => exact maintains_raise e
  | call o k ih => exact (h o).andThen ih

/-- Where every operation is allowed and stays in `J`, so does every coroutine. -/
theorem maintains_of_ops {J : P.Ghost → Prop}
    (h : ∀ o g, J g → ∃ m, P.invoke g o m ∧ ∀ r g', P.answer m o r g' → J g')
    (p : Coro S ε α) : P.Maintains J p := by
  induction p with
  | ret a => exact maintains_ret a
  | raise e => exact maintains_raise e
  | call o k ih =>
      intro g hg
      obtain ⟨m, hinv, hans⟩ := h o g hg
      exact ⟨m, hinv, fun r g' hr => ih r g' (hans r g' hr)⟩

/-- A program stays in `J` if the operations it uses do. -/
theorem maintains_of_uses {J : P.Ghost → Prop} {A : S.Op → Prop} {p : Coro S ε α}
    (hp : p.Uses A) (h : ∀ o, A o → P.Maintains J (.op o : Coro S ε (S.Res o))) :
    P.Maintains J p := by
  induction p with
  | ret a => exact maintains_ret a
  | raise e => exact maintains_raise e
  | call o k ih =>
      intro g hg
      obtain ⟨m, hinv, hans⟩ := (wp_op ..).mp (h o hp.1 g hg)
      exact ⟨m, hinv, fun r g' hr => ih r (hp.2 r) g' (hans r g' hr)⟩

/-- The protocol as seen by a coroutine that uses only the operations of `S`. -/
def left (P : Protocol (S.sum T) ε) : Protocol S ε where
  Ghost := P.Ghost
  Held := P.Held
  invoke g o h := P.invoke g (.inl o) h
  answer h o r g := P.answer h (.inl o) r g

/-- A program over the left operations obeys the left half of the protocol. -/
theorem wp_inl {P : Protocol (S.sum T) ε} (p : Coro S ε α)
    (Q : Except ε α → P.Ghost → Prop) (g : P.Ghost) :
    P.wp (p.inl : Coro (S.sum T) ε α) Q g ↔ P.left.wp p Q g := by
  induction p generalizing g with
  | ret a => exact Iff.rfl
  | raise e => exact Iff.rfl
  | call o k ih =>
      constructor
      · rintro ⟨m, hinv, hk⟩
        exact ⟨m, hinv, fun r g' hans => (ih r g').mp (hk r g' hans)⟩
      · rintro ⟨m, hinv, hk⟩
        exact ⟨m, hinv, fun r g' hans => (ih r g').mpr (hk r g' hans)⟩

/-- The protocol as seen by a coroutine that uses only the operations of `T`. -/
def right (P : Protocol (S.sum T) ε) : Protocol T ε where
  Ghost := P.Ghost
  Held := P.Held
  invoke g o h := P.invoke g (.inr o) h
  answer h o r g := P.answer h (.inr o) r g

/-- A program over the right operations obeys the right half of the protocol. -/
theorem wp_inr {P : Protocol (S.sum T) ε} (p : Coro T ε α)
    (Q : Except ε α → P.Ghost → Prop) (g : P.Ghost) :
    P.wp (p.inr : Coro (S.sum T) ε α) Q g ↔ P.right.wp p Q g := by
  induction p generalizing g with
  | ret a => exact Iff.rfl
  | raise e => exact Iff.rfl
  | call o k ih =>
      constructor
      · rintro ⟨m, hinv, hk⟩
        exact ⟨m, hinv, fun r g' hans => (ih r g').mp (hk r g' hans)⟩
      · rintro ⟨m, hinv, hk⟩
        exact ⟨m, hinv, fun r g' hans => (ih r g').mpr (hk r g' hans)⟩

/-- **Translation**: if each operation that `P'` allows is translated into a program that
    ends, in `P`, as `P'` says the operation does, then what obeys `P'` is translated into
    what obeys `P`.  `R` relates the ghost states of the two. -/
theorem wp_translate {P : Protocol T ε} {P' : Protocol S ε} {R : P'.Ghost → P.Ghost → Prop}
    {f : (o : S.Op) → Coro T ε (S.Res o)}
    (hf : ∀ g' g o h, R g' g → P'.invoke g' o h →
      P.wp (f o) (fun r k => ∃ k', P'.answer h o r k' ∧ R k' k) g)
    {p : Coro S ε α} {Q : Except ε α → P'.Ghost → Prop} {g' : P'.Ghost} {g : P.Ghost}
    (hp : P'.wp p Q g') (hg : R g' g) :
    P.wp (p.translate f) (fun r k => ∃ k', Q r k' ∧ R k' k) g := by
  induction p generalizing g' g with
  | ret a => exact ⟨g', hp, hg⟩
  | raise e => exact ⟨g', hp, hg⟩
  | call o k ih =>
      obtain ⟨h, hinv, hk⟩ := hp
      refine (wp_andThen ..).mpr (wp_mono (hf g' g o h hg hinv) ?_)
      rintro r m ⟨m', hans, hm⟩
      exact ih r (hk r m' hans) hm

/-! ## What a program returns -/

/-- The coroutine obeys the protocol, and what it returns is as `Φ` demands; nothing is
    said of where an exception leaves it. -/
def Returns (P : Protocol S ε) (p : Coro S ε α) (Φ : α → P.Ghost → Prop) (g : P.Ghost) : Prop :=
  P.wp p (fun r g' => ∀ a, r = .ok a → Φ a g') g

theorem returns_pure {a : α} {Φ : α → P.Ghost → Prop} {g : P.Ghost} (h : Φ a g) :
    P.Returns (pure a : Coro S ε α) Φ g := by
  intro b hb
  obtain rfl := Except.ok.inj hb
  exact h

theorem returns_raise (e : ε) (Φ : α → P.Ghost → Prop) (g : P.Ghost) :
    P.Returns (.raise e : Coro S ε α) Φ g := by
  intro b hb
  cases hb

/-- An operation whose results are all as `Φ` demands. -/
theorem returns_op {o : S.Op} {Φ : S.Res o → P.Ghost → Prop} {g : P.Ghost}
    (h : P.Held) (hinv : P.invoke g o h)
    (hans : ∀ a g', P.answer h o (.ok a) g' → Φ a g') :
    P.Returns (.op o : Coro S ε (S.Res o)) Φ g := by
  refine (wp_op ..).mpr ⟨h, hinv, ?_⟩
  rintro r g' hr a rfl
  exact hans a g' hr

/-- **Sequencing**: what the first part returns, the second goes on from. -/
theorem Returns.bind {p : Coro S ε α} {f : α → Coro S ε β} {Φ : α → P.Ghost → Prop}
    {Ψ : β → P.Ghost → Prop} {g : P.Ghost} (hp : P.Returns p Φ g)
    (hf : ∀ a g', Φ a g' → P.Returns (f a) Ψ g') : P.Returns (p >>= f) Ψ g := by
  refine (wp_bind ..).mpr (wp_mono hp ?_)
  rintro (e | a) g' h
  · intro b hb
    cases hb
  · exact hf a g' (h a rfl)

/-- Less may be demanded. -/
theorem Returns.mono {p : Coro S ε α} {Φ Ψ : α → P.Ghost → Prop} {g : P.Ghost}
    (hp : P.Returns p Φ g) (h : ∀ a g', Φ a g' → Ψ a g') : P.Returns p Ψ g :=
  wp_mono hp fun _ g' hr a ha => h a g' (hr a ha)

/-- Staying in `J` is a special case. -/
theorem Maintains.returns {J : P.Ghost → Prop} {p : Coro S ε α} (hp : P.Maintains J p)
    {g : P.Ghost} (hg : J g) : P.Returns p (fun _ g' => J g') g :=
  wp_mono (hp g hg) fun _ _ h _ _ => h

/-- A program over the left operations returns the same among more operations. -/
theorem Returns.inl {P : Protocol (S.sum T) ε} {p : Coro S ε α} {Φ : α → P.Ghost → Prop}
    {g : P.Ghost} (hp : P.left.Returns p Φ g) :
    P.Returns (p.inl : Coro (S.sum T) ε α) Φ g :=
  (wp_inl ..).mpr hp

end Protocol

end Coroutine
