import XdmServer.Protocol

/-! # Interleaved execution of coroutines

    Tasks `ι` run coroutines over a shared state `σ`.  An operation is invoked in
    one step and answered in a later one; between the two, any other task and the
    surroundings may act, and which answer comes is a choice of the world.  A task
    that has ended may start any entry of the system again, so a run is a run of
    any number of calls in any order.

    `Sound.reach` is the proof rule: tasks that obey a protocol, over an invariant
    of the shared state and of everybody's ghost state that each kind of step
    keeps, stay within it in every configuration a run reaches. -/

namespace Interleaving

open Coroutine

variable {S : Signature} {ε α ι σ : Type}

/-- What the operations of the tasks do to the shared state, and what tasks may run. -/
structure System (S : Signature) (ε α ι σ : Type) where
  Entry : Type
  Choice : Type
  Env : Type
  /-- The program a task runs when it starts an entry. -/
  code : Entry → Coro S ε α
  start : σ → ι → Entry → Option σ
  invoke : σ → ι → S.Op → σ
  /-- How an operation under way comes out; `none` where it cannot come out so yet. -/
  answer : σ → ι → (o : S.Op) → Choice → Option (Except ε (S.Res o) × σ)
  env : σ → Env → Option σ

/-- Where a task stands: about to run on, or waiting for an operation. -/
inductive Point (S : Signature) (ε α : Type) : Type where
  | ready (p : Coro S ε α)
  | waiting (o : S.Op) (k : Except ε (S.Res o) → Coro S ε α)

/-- The outcome of a task that has ended. -/
def Point.outcome : Point S ε α → Option (Except ε α)
  | .ready (.ret a) => some (.ok a)
  | .ready (.raise e) => some (.error e)
  | _ => none

/-- The shared state, and where each task stands. -/
structure Config (S : Signature) (ε α ι σ : Type) where
  shared : σ
  point : ι → Point S ε α

/-- A task starts or takes a step, or something happens beside them. -/
inductive Action (sys : System S ε α ι σ) : Type where
  | start (t : ι) (e : sys.Entry)
  | invoke (t : ι)
  | answer (t : ι) (x : sys.Choice)
  | env (x : sys.Env)

variable [DecidableEq ι] {sys : System S ε α ι σ}

/-- One step; `none` where the action is not possible. -/
def step (sys : System S ε α ι σ) (c : Config S ε α ι σ) :
    Action sys → Option (Config S ε α ι σ)
  | .start t e =>
      match (c.point t).outcome with
      | some _ => (sys.start c.shared t e).map fun s =>
          ⟨s, Function.update c.point t (.ready (sys.code e))⟩
      | none => none
  | .invoke t =>
      match c.point t with
      | .ready (.call o k) =>
          some ⟨sys.invoke c.shared t o, Function.update c.point t (.waiting o k)⟩
      | _ => none
  | .answer t x =>
      match c.point t with
      | .waiting o k => (sys.answer c.shared t o x).map fun y =>
          ⟨y.2, Function.update c.point t (.ready (k y.1))⟩
      | _ => none
  | .env x => (sys.env c.shared x).map fun s => ⟨s, c.point⟩

/-- A whole run, action by action. -/
def run (sys : System S ε α ι σ) (c : Config S ε α ι σ) :
    List (Action sys) → Option (Config S ε α ι σ)
  | [] => some c
  | a :: as => (step sys c a).bind fun c' => run sys c' as

/-- The configurations that runs from `c₀` reach, if each of their steps meets `ok`,
    which sees the shared state before and after the step. -/
inductive Reach (sys : System S ε α ι σ) (ok : σ → Action sys → σ → Prop)
    (c₀ : Config S ε α ι σ) : Config S ε α ι σ → Prop
  | refl : Reach sys ok c₀ c₀
  | step {c c' : Config S ε α ι σ} {a : Action sys} :
      Reach sys ok c₀ c → ok c.shared a c'.shared → step sys c a = some c' → Reach sys ok c₀ c'

/-- No condition on the steps. -/
abbrev Free {sys : System S ε α ι σ} (_ : σ) (_ : Action sys) (_ : σ) : Prop := True

theorem Reach.mono {ok ok' : σ → Action sys → σ → Prop} {c₀ c : Config S ε α ι σ}
    (h : Reach sys ok c₀ c) (hok : ∀ s a s', ok s a s' → ok' s a s') : Reach sys ok' c₀ c := by
  induction h with
  | refl => exact .refl
  | step _ ha hs ih => exact .step ih (hok _ _ _ ha) hs

theorem Reach.trans {ok : σ → Action sys → σ → Prop} {c₀ c₁ c₂ : Config S ε α ι σ}
    (h₁ : Reach sys ok c₀ c₁) (h₂ : Reach sys ok c₁ c₂) : Reach sys ok c₀ c₂ := by
  induction h₂ with
  | refl => exact h₁
  | step _ ha hs ih => exact .step ih ha hs

/-- An executed run reaches its last configuration, by steps that meet whatever its
    actions meet in every state. -/
theorem reach_of_run {ok : σ → Action sys → σ → Prop} {c c' : Config S ε α ι σ}
    {as : List (Action sys)} (h : run sys c as = some c') (hok : ∀ a ∈ as, ∀ s s', ok s a s') :
    Reach sys ok c c' := by
  induction as generalizing c with
  | nil =>
      obtain rfl : c = c' := Option.some.inj h
      exact .refl
  | cons a as ih =>
      obtain ⟨c₁, hs, hr⟩ := Option.bind_eq_some_iff.mp h
      have hfirst : Reach sys ok c c₁ := .step .refl (hok a (.head as) _ _) hs
      exact hfirst.trans (ih hr fun b hb => hok b (.tail a hb))

/-- A run that stops short of a step that does not meet `ok`. -/
def runWithin (sys : System S ε α ι σ) (ok : σ → Action sys → σ → Prop)
    [∀ s a s', Decidable (ok s a s')] (c : Config S ε α ι σ) :
    List (Action sys) → Option (Config S ε α ι σ)
  | [] => some c
  | a :: as => (step sys c a).bind fun c' =>
      if ok c.shared a c'.shared then runWithin sys ok c' as else none

theorem reach_of_runWithin {ok : σ → Action sys → σ → Prop} [∀ s a s', Decidable (ok s a s')]
    {c c' : Config S ε α ι σ} {as : List (Action sys)} (h : runWithin sys ok c as = some c') :
    Reach sys ok c c' := by
  induction as generalizing c with
  | nil =>
      obtain rfl : c = c' := Option.some.inj h
      exact .refl
  | cons a as ih =>
      obtain ⟨c₁, hs, hr⟩ := Option.bind_eq_some_iff.mp h
      by_cases hok : ok c.shared a c₁.shared
      · rw [if_pos hok] at hr
        exact (Reach.step .refl hok hs).trans (ih hr)
      · rw [if_neg hok] at hr
        exact nomatch hr

theorem run_of_runWithin {ok : σ → Action sys → σ → Prop} [∀ s a s', Decidable (ok s a s')]
    {c c' : Config S ε α ι σ} {as : List (Action sys)} (h : runWithin sys ok c as = some c') :
    run sys c as = some c' := by
  induction as generalizing c with
  | nil => exact h
  | cons a as ih =>
      obtain ⟨c₁, hs, hr⟩ := Option.bind_eq_some_iff.mp h
      obtain ⟨-, hr⟩ := Option.ite_none_right_eq_some.mp hr
      exact Option.bind_eq_some_iff.mpr ⟨c₁, hs, ih hr⟩

/-- **What a step does**: one case for each kind of action, with everything the step
    needed and everything it changed. -/
theorem step_cases {c c' : Config S ε α ι σ} {a : Action sys} (h : step sys c a = some c') :
    (∃ t e r s, a = .start t e ∧ (c.point t).outcome = some r ∧
      sys.start c.shared t e = some s ∧
      c' = ⟨s, Function.update c.point t (.ready (sys.code e))⟩) ∨
    (∃ t o k, a = .invoke t ∧ c.point t = .ready (.call o k) ∧
      c' = ⟨sys.invoke c.shared t o, Function.update c.point t (.waiting o k)⟩) ∨
    (∃ t x o k r s, a = .answer t x ∧ c.point t = .waiting o k ∧
      sys.answer c.shared t o x = some (r, s) ∧
      c' = ⟨s, Function.update c.point t (.ready (k r))⟩) ∨
    (∃ x s, a = .env x ∧ sys.env c.shared x = some s ∧ c' = ⟨s, c.point⟩) := by
  cases a with
  | start t e =>
      simp only [step] at h
      split at h
      · next r hr =>
          obtain ⟨s, hs, rfl⟩ := Option.map_eq_some_iff.mp h
          exact .inl ⟨t, e, r, s, rfl, hr, hs, rfl⟩
      · exact nomatch h
  | invoke t =>
      simp only [step] at h
      split at h
      · next o k hp => exact .inr (.inl ⟨t, o, k, rfl, hp, (Option.some.inj h).symm⟩)
      · exact nomatch h
  | answer t x =>
      simp only [step] at h
      split at h
      · next o k hp =>
          obtain ⟨⟨r, s⟩, hs, rfl⟩ := Option.map_eq_some_iff.mp h
          exact .inr (.inr (.inl ⟨t, x, o, k, r, s, rfl, hp, hs, rfl⟩))
      · exact nomatch h
  | env x =>
      obtain ⟨s, hs, rfl⟩ := Option.map_eq_some_iff.mp h
      exact .inr (.inr (.inr ⟨x, s, rfl, hs, rfl⟩))

/-! ## The proof rule -/

/-- The ghost side of a task. -/
inductive Phase (P : Protocol S ε) : Type where
  | ready (g : P.Ghost)
  | waiting (h : P.Held)

variable {P : Protocol S ε}

/-- The task obeys the protocol from where it stands. -/
def Agrees (P : Protocol S ε) (Q : Except ε α → P.Ghost → Prop) :
    Point S ε α → Phase P → Prop
  | .ready p, .ready g => P.wp p Q g
  | .waiting o k, .waiting h =>
      (∃ g, P.invoke g o h) ∧ ∀ r g, P.answer h o r g → P.wp (k r) Q g
  | _, _ => False

/-- Each kind of step keeps the invariant `I`, for tasks that obey the protocol. -/
structure Sound (P : Protocol S ε) (sys : System S ε α ι σ) (ok : σ → Action sys → σ → Prop)
    (Q : Except ε α → P.Ghost → Prop) (I : σ → (ι → Phase P) → Prop) : Prop where
  start : ∀ {s s' ph t e g r}, I s ph → ph t = .ready g → Q r g → ok s (.start t e) s' →
    sys.start s t e = some s' →
    ∃ g', P.wp (sys.code e) Q g' ∧ I s' (Function.update ph t (.ready g'))
  invoke : ∀ {s ph t o g h}, I s ph → ph t = .ready g → P.invoke g o h →
    ok s (.invoke t) (sys.invoke s t o) → I (sys.invoke s t o) (Function.update ph t (.waiting h))
  answer : ∀ {s s' ph t o h x r}, I s ph → ph t = .waiting h → (∃ g, P.invoke g o h) →
    ok s (.answer t x) s' → sys.answer s t o x = some (r, s') →
    ∃ g', P.answer h o r g' ∧ I s' (Function.update ph t (.ready g'))
  env : ∀ {s s' ph x}, I s ph → ok s (.env x) s' → sys.env s x = some s' → I s' ph

/-- A task that has ended has met its end condition. -/
theorem Agrees.outcome {Q : Except ε α → P.Ghost → Prop} {q : Point S ε α} {φ : Phase P}
    {r : Except ε α} (h : Agrees P Q q φ) (hr : q.outcome = some r) :
    ∃ g, φ = .ready g ∧ Q r g := by
  match q, φ, h with
  | .ready (.ret a), .ready g, h =>
      obtain rfl : Except.ok a = r := Option.some.inj hr
      exact ⟨g, rfl, h⟩
  | .ready (.raise e), .ready g, h =>
      obtain rfl : Except.error e = r := Option.some.inj hr
      exact ⟨g, rfl, h⟩

/-- What an obedient task waits for, it was allowed to invoke. -/
theorem Agrees.invoked {Q : Except ε α → P.Ghost → Prop} {q : Point S ε α} {h : P.Held}
    (hA : Agrees P Q q (.waiting h)) : ∃ g o, P.invoke g o h := by
  match q, hA with
  | .waiting o _, ⟨⟨g, hinv⟩, _⟩ => exact ⟨g, o, hinv⟩

/-- What holds of the task that moved, and of all others, holds of every task. -/
theorem forall_update {R : ι → Phase P → Prop} {ph : ι → Phase P} {t : ι} {φ : Phase P}
    (ht : R t φ) (hothers : ∀ u, u ≠ t → R u (ph u)) (u : ι) : R u (Function.update ph t φ u) :=
  (Function.forall_update_iff ph R).mpr ⟨ht, hothers⟩ u

/-- Changing one task keeps the agreement of the others. -/
theorem agrees_update {Q : Except ε α → P.Ghost → Prop} {pt : ι → Point S ε α}
    {ph : ι → Phase P} (h : ∀ u, Agrees P Q (pt u) (ph u)) {t : ι} {q : Point S ε α}
    {φ : Phase P} (hq : Agrees P Q q φ) (u : ι) :
    Agrees P Q (Function.update pt t q u) (Function.update ph t φ u) := by
  by_cases hu : u = t
  · subst hu
    rw [Function.update_self, Function.update_self]
    exact hq
  · rw [Function.update_of_ne hu, Function.update_of_ne hu]
    exact h u

/-- One step of a system of obedient tasks. -/
theorem Sound.step {ok : σ → Action sys → σ → Prop} {Q : Except ε α → P.Ghost → Prop}
    {I : σ → (ι → Phase P) → Prop} (hS : Sound P sys ok Q I) {c c' : Config S ε α ι σ}
    {a : Action sys} {ph : ι → Phase P} (hI : I c.shared ph)
    (hA : ∀ t, Agrees P Q (c.point t) (ph t)) (hok : ok c.shared a c'.shared)
    (hs : step sys c a = some c') :
    ∃ ph', I c'.shared ph' ∧ ∀ t, Agrees P Q (c'.point t) (ph' t) := by
  obtain ⟨t, e, r, s, rfl, hr, hst, rfl⟩ | ⟨t, o, k, rfl, hp, rfl⟩ |
    ⟨t, x, o, k, r, s, rfl, hp, han, rfl⟩ | ⟨x, s, rfl, hen, rfl⟩ := step_cases hs
  · obtain ⟨g, hph, hQ⟩ := (hA t).outcome hr
    obtain ⟨g', hwp, hI'⟩ := hS.start hI hph hQ hok hst
    exact ⟨_, hI', agrees_update hA hwp⟩
  · have ht := hA t
    rw [hp] at ht
    match hph : ph t, ht with
    | .ready g, ⟨h, hinv, hk⟩ =>
        exact ⟨_, hS.invoke hI hph hinv hok, agrees_update hA ⟨⟨g, hinv⟩, hk⟩⟩
  · have ht := hA t
    rw [hp] at ht
    match hph : ph t, ht with
    | .waiting h, ⟨hinv, hk⟩ =>
        obtain ⟨g', hans, hI'⟩ := hS.answer hI hph hinv hok han
        exact ⟨_, hI', agrees_update hA (hk r g' hans)⟩
  · exact ⟨ph, hS.env hI hok hen, hA⟩

/-- **The invariant rule**: obedient tasks stay within the invariant along every run. -/
theorem Sound.reach {ok : σ → Action sys → σ → Prop} {Q : Except ε α → P.Ghost → Prop}
    {I : σ → (ι → Phase P) → Prop} (hS : Sound P sys ok Q I) {c₀ c : Config S ε α ι σ}
    {ph₀ : ι → Phase P} (hI : I c₀.shared ph₀)
    (hA : ∀ t, Agrees P Q (c₀.point t) (ph₀ t)) (hc : Reach sys ok c₀ c) :
    ∃ ph, I c.shared ph ∧ ∀ t, Agrees P Q (c.point t) (ph t) := by
  induction hc with
  | refl => exact ⟨ph₀, hI, hA⟩
  | step _ hok hs ih =>
      obtain ⟨ph, hI', hA'⟩ := ih
      exact hS.step hI' hA' hok hs

end Interleaving
