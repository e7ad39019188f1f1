import XdmServer.Coroutine

/-! # Segments of a coroutine, and exceptions that pass through it

    Some operations of a coroutine make it wait, others are answered at once.  A
    `segment` is what the coroutine does in one go, up to where it waits next or ends,
    with everything the operations on the way emit.

    `Propagates c` says of a coroutine that it does not raise `c` by itself, and that
    `c`, delivered where it waits, ends it there and then.  It is what makes a task
    stop when it is cancelled, and at no other time. -/

namespace Coroutine

variable {S T : Signature} {ε α β E : Type}

/-- Where a segment stops. -/
inductive Rest (S : Signature) (ε α : Type) : Type where
  | waiting (o : S.Op) (k : Except ε (S.Res o) → Coro S ε α)
  | ended (r : Except ε α)

namespace Coro

/-- Run up to the next operation that waits.  `now` answers those that do not, and
    says what they emit. -/
def segment (now : (o : S.Op) → Option (S.Res o × List E)) :
    Coro S ε α → List E × Rest S ε α
  | .ret a => ([], .ended (.ok a))
  | .raise e => ([], .ended (.error e))
  | .call o k =>
      match now o with
      | some (a, es) => (es ++ ((k (.ok a)).segment now).1, ((k (.ok a)).segment now).2)
      | none => ([], .waiting o k)

/-- The coroutine raises `c` exactly when it is answered with `c`, and then at once. -/
def Propagates (c : ε) : Coro S ε α → Prop
  | .ret _ => True
  | .raise e => e ≠ c
  | .call _ k => k (.error c) = .raise c ∧ ∀ r, r ≠ .error c → (k r).Propagates c

variable {c : ε}

/-- An operation on its own catches nothing. -/
theorem propagates_op (o : S.Op) : (op o : Coro S ε (S.Res o)).Propagates c := by
  refine ⟨rfl, ?_⟩
  rintro (e | a) hr
  · exact fun h => hr (congrArg Except.error h)
  · trivial

/-- **Sequencing propagates** if both parts do. -/
theorem Propagates.bind {p : Coro S ε α} {f : α → Coro S ε β} (hp : p.Propagates c)
    (hf : ∀ a, (f a).Propagates c) : (p >>= f).Propagates c := by
  induction p with
  | ret a => exact hf a
  | raise e => exact hp
  | call o k ih =>
      obtain ⟨hc, hk⟩ := hp
      refine ⟨?_, fun r hr => ih r (hk r hr)⟩
      show (k (.error c)).andThen _ = _
      rw [hc]
      rfl

theorem Propagates.inl {p : Coro S ε α} (hp : p.Propagates c) :
    (p.inl : Coro (S.sum T) ε α).Propagates c := by
  induction p with
  | ret a => trivial
  | raise e => exact hp
  | call o k ih =>
      obtain ⟨hc, hk⟩ := hp
      refine ⟨?_, fun r hr => ih r (hk r hr)⟩
      show (k (.error c)).inl = _
      rw [hc]
      rfl

end Coro

/-- What a segment leaves to do. -/
def Rest.Propagates (c : ε) : Rest S ε α → Prop
  | .waiting o k => (Coro.call o k).Propagates c
  | .ended (.ok _) => True
  | .ended (.error e) => e ≠ c

/-- **A segment keeps it**: operations that are answered at once do not raise. -/
theorem Coro.Propagates.segment {c : ε} {now : (o : S.Op) → Option (S.Res o × List E)}
    {p : Coro S ε α} (hp : p.Propagates c) : (p.segment now).2.Propagates c := by
  induction p with
  | ret a => trivial
  | raise e => exact hp
  | call o k ih =>
      simp only [Coro.segment]
      split
      · next a es _ => exact ih (.ok a) (hp.2 _ (by simp))
      · exact hp

end Coroutine
