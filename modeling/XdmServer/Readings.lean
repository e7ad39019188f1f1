import XdmServer.Turns

/-! # Readings and the function they were measured in

    `read_measurement` asks for the function in one turn and for the value in another.
    A reading is right if the meter was, when it answered the `MEAS1?`, in the function
    the reading is labelled with.  `wellLabelled` says that all readings are right, the
    returned, the published and the stored, in every run in which the function of the
    meter does not change between the two turns of a `read_measurement`. -/

namespace Readings

open PyText Coroutine Commands Device Driver Interleaving Turns

variable {V M ι : Type} [DecidableEq ι] (T : Meter M) {timeout : Rat} (float : Str → Option V)

/-- The reading carries the function in which its value was measured, and its unit. -/
def RightFor (function unit : Str) (value : V) (x : Option Sample) : Prop :=
  ∃ f raw, x = some (f, raw) ∧ function = f.value ∧ unit = UNITS f ∧ float raw = some value

/-- Every measurement returned, and every reading returned, published or stored, carries
    the function in which its value was measured. -/
structure WellLabelled (c : Config (Server V) Exc (Answer V) ι (Room M V ι)) : Prop where
  measurement : ∀ t m, c.point t = .ready (.ret (.measurement m)) →
    ∃ raw, c.shared.sample t = some (m.function, raw) ∧ m.unit = UNITS m.function ∧
      float raw = some m.value
  reading : ∀ t r, c.point t = .ready (.ret (.reading r)) →
    RightFor float r.function r.unit r.value (c.shared.sample t)
  kept : ∀ x ∈ c.shared.readings, RightFor float x.1.function x.1.unit x.1.value x.2

/-- The request begins with a `read_measurement`. -/
def reads : Request → Bool
  | .measure => true
  | .poll => true
  | .take _ => true
  | .status _ _ => true
  | _ => false

/-- A step that changes the function of the meter comes while no `read_measurement` has
    its `FUNC1?` answered and its `MEAS1?` still to come. -/
def Steady (s : Room M V ι) (_ : Action (room T timeout float : System _ _ _ ι _))
    (s' : Room M V ι) : Prop :=
  (T.config s'.meter).function ≠ (T.config s.meter).function →
    ∀ u, reads (s.serving u) = true → s.asked u ≠ [(FUNCTION, true)]

/-! ## The stages of a reading -/

/-- What a task knows: nothing, that it is to read, the function, or the answer of the
    meter and the function it was given in. -/
inductive Stage where
  | other
  | fresh
  | asked (f : Function)
  | taken (f : Function) (raw : Str)

/-- Whether a task may publish or store what it does. -/
def mayKeep : Stage → HubOp V → Prop
  | .taken f raw, .publish r => RightFor float r.function r.unit r.value (some (f, raw))
  | .taken f raw, .insertReading r => RightFor float r.function r.unit r.value (some (f, raw))
  | _, .publish _ => False
  | _, .insertReading _ => False
  | _, _ => True

/-- The function is asked first, then the value; what is kept is what was measured. -/
def labels : Protocol (Server V) Exc where
  Ghost := Stage
  Held := Stage
  invoke g o h := h = g ∧ match g, o with
    | .fresh, .inl c => c = .query FUNCTION none
    | .asked _, .inl c => c = .query MEASURE none
    | .taken _ _, .inl c => c.command ≠ MEASURE
    | .other, .inl _ => True
    | g, .inr o => mayKeep float g o
  answer h o r g := match h, o, r with
    | .fresh, .inl (.query _ _), .ok raw => ∃ f, Function.fromDevice raw = some f ∧ g = .asked f
    | .asked f, .inl (.query _ _), .ok raw => g = .taken f raw
    | .fresh, .inl _, _ => g = .other
    | .asked _, .inl _, _ => g = .other
    | h, _, _ => g = h

/-- A task of which nothing is known does with the manager what it likes. -/
theorem maintains_other {α : Type} (p : Coro Calls Exc α) :
    (labels float).left.Maintains (fun g => g = .other) p :=
  Protocol.maintains_of_ops (fun c g hg => by
    subst hg
    exact ⟨.other, ⟨rfl, trivial⟩, fun r g' h => h⟩) p

/-- What is asked after the reading leaves it alone. -/
theorem maintains_query {f : Function} {raw command : Str} (h : command ≠ MEASURE) :
    (labels float).left.Maintains (fun g => g = .taken f raw) (query command) :=
  Protocol.maintains_op fun g hg => by
    subst hg
    exact ⟨.taken f raw, ⟨rfl, h⟩, fun r g' h => h⟩

theorem maintains_parsed {α : Type} {J : Stage → Prop} (x : Option α) :
    (labels float).left.Maintains J (parsed x) := by
  cases x with
  | none => exact Protocol.maintains_raise _
  | some a => exact Protocol.maintains_ret a

theorem maintains_readStateOut {f : Function} {raw : Str} :
    (labels float).left.Maintains (fun g => g = .taken f raw) readStateOut := by
  have hfunction : (labels float).left.Maintains (fun g => g = .taken f raw) getFunction :=
    (maintains_query float (by decide)).bind fun _ => maintains_parsed float _
  have hrate : (labels float).left.Maintains (fun g => g = .taken f raw) getRate :=
    (maintains_query float (by decide)).bind fun _ => maintains_parsed float _
  have hauto : (labels float).left.Maintains (fun g => g = .taken f raw) getAutoRange :=
    (maintains_query float (by decide)).bind fun _ => Protocol.maintains_ret _
  have hrange : ∀ function, (labels float).left.Maintains (fun g => g = .taken f raw)
      (getRange (some function)) := by
    intro function
    show (labels float).left.Maintains _ (if function ∈ NO_RANGE_QUERY then _ else _)
    by_cases hno : function ∈ NO_RANGE_QUERY
    · rw [if_pos hno]
      exact Protocol.maintains_ret _
    · rw [if_neg hno]
      refine ((maintains_query float (by decide)).bind fun _ => Protocol.maintains_ret _).tryExcept
        fun e => ?_
      cases e with
      | deviceError e => exact Protocol.maintains_ret _
      | _ => exact Protocol.maintains_raise _
  exact (hfunction.bind fun function => hrate.bind fun _ => hauto.bind fun _ =>
    (hrange function).bind fun _ => Protocol.maintains_ret _).bind fun _ => Protocol.maintains_ret _

/-- **`read_measurement`** returns the function that was asked and the value that was
    measured. -/
theorem returns_readMeasurement :
    (labels float).left.Returns (readMeasurement float) (fun m g =>
      ∃ raw, g = .taken m.function raw ∧ m.unit = UNITS m.function ∧ float raw = some m.value)
      .fresh := by
  have hfunction : (labels float).left.Returns getFunction (fun f g => g = .asked f) .fresh := by
    refine (Protocol.returns_op (P := (labels float).left) Stage.fresh ⟨rfl, rfl⟩
      fun raw g h => h).bind ?_
    rintro raw g ⟨f, hparse, rfl⟩
    refine (returns_parsed (Function.fromDevice raw) _).mono ?_
    rintro f' g ⟨rfl, hf'⟩
    exact congrArg Stage.asked (Option.some.inj (hparse.symm.trans hf'))
  refine hfunction.bind ?_
  rintro f g rfl
  refine (Protocol.returns_op (P := (labels float).left) (Stage.asked f) ⟨rfl, rfl⟩
    fun raw g h => h).bind ?_
  rintro raw g rfl
  refine (returns_parsed (float raw) _).bind ?_
  rintro v g ⟨rfl, hval⟩
  exact Protocol.returns_pure ⟨raw, rfl, rfl, hval⟩

/-- What an answer says of the stage in which a request ends. -/
def ends : Except Exc (Answer V) → Stage → Prop
  | .ok (.measurement m), g =>
      ∃ raw, g = .taken m.function raw ∧ m.unit = UNITS m.function ∧ float raw = some m.value
  | .ok (.reading r), g =>
      ∃ f raw, g = .taken f raw ∧ RightFor float r.function r.unit r.value (some (f, raw))
  | _, _ => True

/-- The reading made of a measurement is right. -/
theorem rightFor_fromMeasurement {m : Measurement V} {raw : Str} (timestamp : Rat)
    (hunit : m.unit = UNITS m.function) (hval : float raw = some m.value) :
    RightFor float (Reading.fromMeasurement m timestamp).function
      (Reading.fromMeasurement m timestamp).unit (Reading.fromMeasurement m timestamp).value
      (some (m.function, raw)) :=
  ⟨m.function, raw, rfl, rfl, hunit, hval⟩

/-- The clock, the broadcaster and the database leave a task where it is. -/
theorem returns_hub {o : HubOp V} {g : Stage} (h : mayKeep float g o) :
    (labels float).Returns (.op (S := Server V) (.inr o)) (fun _ g' => g' = g) g := by
  refine Protocol.returns_op g ?_ ?_
  · cases g <;> exact ⟨rfl, h⟩
  · intro r g' hans
    cases g <;> exact hans

/-- What is known of a reading and of the stage in which it has been taken. -/
def Taken (r : Reading V) (g : Stage) : Prop :=
  ∃ f raw, g = .taken f raw ∧ RightFor float r.function r.unit r.value (some (f, raw))

/-- After a measurement: the clock, and what is done with the reading. -/
theorem returns_withReading {α : Type} {Φ : α → Stage → Prop}
    {k : Reading V → Coro (Server V) Exc α}
    (hk : ∀ r g, Taken float r g → (labels float).Returns (k r) Φ g) :
    (labels float).Returns (do
      let m ← (readMeasurement float).inl
      let timestamp ← Hub.time
      k (Reading.fromMeasurement m timestamp)) Φ .fresh := by
  refine (returns_readMeasurement float).inl.bind ?_
  rintro m g ⟨raw, rfl, hunit, hval⟩
  refine (returns_hub float (o := .time) (g := .taken m.function raw) trivial).bind ?_
  rintro timestamp g rfl
  exact hk _ _ ⟨_, _, rfl, rightFor_fromMeasurement float timestamp hunit hval⟩

/-- Publishing or storing the reading. -/
theorem returns_keep {r : Reading V} {o : HubOp V} {g : Stage}
    (ho : o = .publish r ∨ o = .insertReading r) (hr : Taken float r g) :
    (labels float).Returns (.op (S := Server V) (.inr o)) (fun _ g' => g' = g) g := by
  obtain ⟨f, raw, rfl, hright⟩ := hr
  refine returns_hub float ?_
  obtain rfl | rfl := ho <;> exact hright

/-- `_take_reading` returns a reading that is right. -/
theorem returns_takeReading (database : Bool) :
    (labels float).Returns (takeReading float database) (Taken float) .fresh := by
  refine returns_withReading float (k := fun r =>
      if database then do
        Hub.insertReading r
        pure r
      else pure r) ?_
  intro r g hr
  cases database with
  | false => exact Protocol.returns_pure hr
  | true =>
      refine (returns_keep float (.inr rfl) hr).bind ?_
      rintro _ g rfl
      exact Protocol.returns_pure hr

/-- The stage in which a request begins. -/
def begins (r : Request) : Stage := if reads r then .fresh else .other

/-- `/api/status` takes its reading first, and then asks what it likes. -/
theorem returns_status (database : Bool) (seconds : Rat) :
    (labels float).Returns (Driver.status float database seconds) (fun _ _ => True) .fresh := by
  refine (returns_validateSeconds seconds _).bind ?_
  rintro _ g ⟨rfl, -⟩
  refine (returns_takeReading float database).bind ?_
  rintro r g ⟨f, raw, rfl, -⟩
  refine (Protocol.Returns.inl ((maintains_readStateOut float).returns rfl)).bind ?_
  rintro st g rfl
  cases database with
  | false => exact Protocol.returns_pure trivial
  | true =>
      refine (returns_hub float (o := .aggregate _ _) (g := .taken f raw) trivial).bind ?_
      intro agg g _
      exact Protocol.returns_pure trivial

/-- **Every request** returns what is right. -/
theorem returns_code (r : Request) :
    (labels float).Returns (r.code float) (fun a g => ends float (.ok a) g) (begins r) := by
  cases r with
  | measure =>
      refine (returns_readMeasurement float).inl.bind ?_
      intro m g h
      exact Protocol.returns_pure h
  | poll =>
      refine (returns_withReading float (Φ := Taken float) (k := fun r => do
          Hub.publish r
          pure r) ?_).bind ?_
      · intro r g hr
        refine (returns_keep float (.inl rfl) hr).bind ?_
        rintro _ g rfl
        exact Protocol.returns_pure hr
      · intro r g hr
        exact Protocol.returns_pure hr
  | take database =>
      refine (returns_takeReading float database).bind ?_
      intro r g hr
      exact Protocol.returns_pure hr
  | state =>
      refine (Protocol.Returns.inl ((maintains_other float readState).returns rfl)).bind ?_
      intro d g _
      exact Protocol.returns_pure trivial
  | status database seconds =>
      refine (returns_status float database seconds).bind ?_
      intro st g _
      exact Protocol.returns_pure trivial
  | other p =>
      refine (Protocol.Returns.inl ((maintains_other float p).returns rfl)).bind ?_
      intro u g _
      exact Protocol.returns_pure trivial

/-- It obeys the protocol, however it ends. -/
theorem wp_code (r : Request) :
    (labels float).wp (r.code float) (ends float) (begins r) := by
  refine Protocol.wp_mono (returns_code float r) ?_
  rintro (e | a) g h
  · trivial
  · exact h a rfl

/-! ## The invariant -/

/-- The stage that a phase has got to. -/
def stage : Phase (labels float) → Stage
  | .ready g => g
  | .waiting h => h

/-- What a task knows is so. -/
def Holds (s : Room M V ι) (t : ι) : Stage → Prop
  | .other => True
  | .fresh => reads (s.serving t) = true ∧ s.asked t = []
  | .asked f => reads (s.serving t) = true ∧ s.asked t = [(FUNCTION, true)] ∧
      (T.config s.meter).function = f
  | .taken f raw => s.sample t = some (f, raw)

/-- Every task's stage holds of the room, and what was read was rightly labelled. -/
structure Inv (s : Room M V ι) (ph : ι → Phase (labels float)) : Prop where
  holds : ∀ t, Holds T s t (stage float (ph t))
  kept : ∀ x ∈ s.readings, RightFor float x.1.function x.1.unit x.1.value x.2

omit [DecidableEq ι] in
/-- A step that changes the function of the meter only where nobody relies on it, and the
    knowledge of no task but its own. -/
theorem Holds.frame {s s' : Room M V ι} {u : ι} {g : Stage} (h : Holds T s u g)
    (hserving : s'.serving u = s.serving u) (hasked : s'.asked u = s.asked u)
    (hsample : s'.sample u = s.sample u)
    (hsteady : (T.config s'.meter).function ≠ (T.config s.meter).function →
      reads (s.serving u) = true → s.asked u ≠ [(FUNCTION, true)]) : Holds T s' u g := by
  cases g with
  | other => trivial
  | fresh =>
      obtain ⟨hr, ha⟩ := h
      exact ⟨hserving ▸ hr, hasked.trans ha⟩
  | asked f =>
      obtain ⟨hr, ha, hf⟩ := h
      refine ⟨hserving ▸ hr, hasked.trans ha, ?_⟩
      by_contra hne
      exact hsteady (fun he => hne (he.trans hf)) hr ha
  | taken f raw => exact hsample.trans h

/-- A task that is about to begin a request. -/
theorem holds_start (s : Room M V ι) (t : ι) (r : Request) :
    Holds T (s.start T t r) t (begins r) := by
  unfold begins
  by_cases hr : reads r = true
  · rw [if_pos hr]
    refine ⟨?_, Function.update_self ..⟩
    show reads (Function.update s.serving t r t) = true
    rw [Function.update_self]
    exact hr
  · rw [if_neg hr]
    trivial

/-- What every task but one keeps, and what that one has come to know. -/
theorem Inv.update {s s' : Room M V ι} {ph : ι → Phase (labels float)} (h : Inv T float s ph)
    {t : ι} {φ : Phase (labels float)} (ht : Holds T s' t (stage float φ))
    (hframe : ∀ u, u ≠ t → s'.serving u = s.serving u ∧ s'.asked u = s.asked u ∧
      s'.sample u = s.sample u)
    (hsteady : (T.config s'.meter).function ≠ (T.config s.meter).function →
      ∀ u, reads (s.serving u) = true → s.asked u ≠ [(FUNCTION, true)])
    (hkept : ∀ x ∈ s'.readings, RightFor float x.1.function x.1.unit x.1.value x.2) :
    Inv T float s' (Function.update ph t φ) := by
  refine ⟨forall_update (R := fun u φ => Holds T s' u (stage float φ)) ht fun u hu => ?_, hkept⟩
  obtain ⟨hserving, hasked, hsample⟩ := hframe u hu
  exact (h.holds u).frame T hserving hasked hsample fun hne => hsteady hne u

/-! ## Every step keeps the invariant -/

/-- An answered `FUNC1?` tells the function. -/
theorem answer_fresh {command raw : Str} {f : Function} {y : Option Str} (hy : y = some raw)
    (hf : Function.fromDevice raw = some f) :
    (labels float).answer .fresh (.inl (.query command none))
      (Call.value (.query command none) y) (.asked f) := by
  subst hy
  exact ⟨f, hf, rfl⟩

/-- An answered `MEAS1?` is what the task takes. -/
theorem answer_asked {command raw : Str} {f : Function} {y : Option Str} (hy : y = some raw) :
    (labels float).answer (.asked f) (.inl (.query command none))
      (Call.value (.query command none) y) (.taken f raw) := by
  subst hy
  rfl

/-- Whatever the meter is asked after the reading, the sample stays. -/
theorem sample_turn {s : Room M V ι} {t : ι} {command : Str} {m : M} {answer : Option Str}
    {success : Bool} (h : command ≠ MEASURE) :
    (s.turn T t command m answer success).sample = s.sample :=
  if_neg h

/-- A call of the manager comes out. -/
theorem inv_call {s s' : Room M V ι} {ph : ι → Phase (labels float)} {t : ι} {c : Call}
    {h : Stage} {x : Outcome V} {r : Except Exc c.Res} (hI : Inv T float s ph)
    (hph : ph t = .waiting h) (hinv : ∃ g, (labels float).invoke g (.inl c) h)
    (hsteady : (T.config s'.meter).function ≠ (T.config s.meter).function →
      ∀ u, reads (s.serving u) = true → s.asked u ≠ [(FUNCTION, true)])
    (hs : s.call T timeout t c x = some (r, s')) :
    ∃ g, (labels float).answer h (.inl c) r g ∧
      Inv T float s' (Function.update ph t (.ready g)) := by
  have hh : Holds T s t h := by
    have := hI.holds t
    rw [hph] at this
    exact this
  obtain ⟨_, rfl, hcall⟩ := hinv
  -- the others keep what they know, so only the task itself is left to look at
  have hupdate : ∀ {m answer success} g, s' = s.turn T t c.command m answer success →
      Holds T s' t g → Inv T float s' (Function.update ph t (.ready g)) := by
    rintro m answer success g rfl hg
    exact hI.update T float hg (turn_frame T s t _ _ _ _) hsteady hI.kept
  obtain ⟨greeted, hsome, rfl, hs'⟩ | ⟨greeted, executed, e, rfl, hs', -⟩ := call_cases T hs
  · cases h with
    | other => exact ⟨.other, rfl, hupdate _ hs' trivial⟩
    | fresh =>
        obtain rfl : c = .query FUNCTION none := hcall
        -- `FUNC1?` tells the function, and the meter keeps it
        obtain ⟨m₁, raw, hm₁, hanswer, hraw, hconfig⟩ := T.turn_answer (by decide) (hsome rfl)
        have hparse : Function.fromDevice raw = some (T.config s.meter).function :=
          hm₁ ▸ T.function_answer m₁ raw hanswer
        refine ⟨.asked (T.config s.meter).function, answer_fresh float hraw hparse,
          hupdate _ hs' ?_⟩
        subst hs'
        refine ⟨hh.1, ?_, congrArg DeviceState.function hconfig⟩
        show Function.update s.asked t (s.asked t ++ [(FUNCTION, true)]) t = _
        rw [Function.update_self, hh.2]
        rfl
    | asked f =>
        obtain rfl : c = .query MEASURE none := hcall
        -- `MEAS1?` is answered in the function that `FUNC1?` told, for nobody has changed it since
        obtain ⟨m₁, raw, -, -, hraw, hconfig⟩ :=
          T.turn_answer (q := MEASURE) (by decide) (hsome rfl)
        refine ⟨.taken f raw, answer_asked float hraw, hupdate _ hs' ?_⟩
        subst hs'
        show Function.update s.sample t ((T.turn s.meter greeted true MEASURE).1.map fun raw =>
          ((T.config (T.turn s.meter greeted true MEASURE).2).function, raw)) t = _
        rw [Function.update_self, hraw, hconfig, hh.2.2]
        rfl
    | taken f raw =>
        refine ⟨.taken f raw, rfl, hupdate _ hs' ?_⟩
        subst hs'
        exact (congrFun (sample_turn T hcall) t).trans hh
  · cases h with
    | other => exact ⟨.other, rfl, hupdate _ hs' trivial⟩
    -- a call that fails ends the measurement: nothing is known and nothing kept
    | fresh => exact ⟨.other, by cases c <;> rfl, hupdate _ hs' trivial⟩
    | asked f => exact ⟨.other, by cases c <;> rfl, hupdate _ hs' trivial⟩
    | taken f raw =>
        refine ⟨.taken f raw, rfl, hupdate _ hs' ?_⟩
        subst hs'
        exact (congrFun (sample_turn T hcall) t).trans hh

omit [DecidableEq ι] in
/-- What a task may keep is right for the sample it has. -/
theorem rightFor_of_mayKeep {s : Room M V ι} {t : ι} {g : Stage} {o : HubOp V} {r : Reading V}
    (ho : o = .publish r ∨ o = .insertReading r) (hmay : mayKeep float g o)
    (hg : Holds T s t g) : RightFor float r.function r.unit r.value (s.sample t) := by
  cases g with
  | taken f raw =>
      have hsample : s.sample t = some (f, raw) := hg
      rw [hsample]
      obtain rfl | rfl := ho <;> exact hmay
  | _ => obtain rfl | rfl := ho <;> exact hmay.elim

/-- A call of the clock, the broadcaster or the database comes out. -/
theorem inv_hub {s s' : Room M V ι} {ph : ι → Phase (labels float)} {t : ι} {o : HubOp V}
    {h : Stage} {x : Outcome V} {r : Except Exc o.Res} (hI : Inv T float s ph)
    (hph : ph t = .waiting h) (hinv : ∃ g, (labels float).invoke g (.inr o) h)
    (hs : s.hub t o x = some (r, s')) :
    ∃ g, (labels float).answer h (.inr o) r g ∧
      Inv T float s' (Function.update ph t (.ready g)) := by
  have hh : Holds T s t h := by
    have := hI.holds t
    rw [hph] at this
    exact this
  obtain ⟨_, rfl, hmay⟩ := hinv
  have hmay' : mayKeep float h o := by cases h <;> exact hmay
  refine ⟨h, by cases h <;> rfl, ?_⟩
  obtain rfl | ⟨reading, ho, rfl⟩ := hub_cases hs
  · exact hI.update T float hh (fun _ _ => ⟨rfl, rfl, rfl⟩) (fun hne => absurd rfl hne) hI.kept
  · refine hI.update T float (t := t) (φ := .ready h) ?_ (fun _ _ => ⟨rfl, rfl, rfl⟩)
      (fun hne => absurd rfl hne) fun y hy => ?_
    · exact hh.frame T rfl rfl rfl fun hne => absurd rfl hne
    · obtain hy | hy := List.mem_append.mp hy
      · exact hI.kept y hy
      · obtain rfl := List.mem_singleton.mp hy
        exact rightFor_of_mayKeep T float ho hmay' hh

/-- **Every step** keeps the invariant. -/
theorem sound : Sound (labels float) (room T timeout float : System _ _ _ ι _) (Steady T float)
    (ends float) (Inv T float) where
  start {s s' ph t e g r} hI _ _ _ hs := by
    obtain rfl : s.start T t e = s' := Option.some.inj hs
    refine ⟨begins e, wp_code float e, hI.update T float (holds_start T s t e)
      (fun u hu => ?_) (fun hne => absurd rfl hne) hI.kept⟩
    exact ⟨Function.update_of_ne hu .., Function.update_of_ne hu .., Function.update_of_ne hu ..⟩
  invoke {s ph t o g h} hI hph hinv _ := by
    obtain ⟨rfl, -⟩ := hinv
    have hh : Holds T s t h := by
      have := hI.holds t
      rw [hph] at this
      exact this
    exact hI.update T float hh (fun _ _ => ⟨rfl, rfl, rfl⟩) (fun hne => absurd rfl hne) hI.kept
  answer {s s' ph t o h x r} hI hph hinv hsteady hs := by
    cases o with
    | inl c => exact inv_call T float hI hph hinv hsteady hs
    | inr o => exact inv_hub T float hI hph hinv hs
  env {s s' ph m} hI hsteady hs := by
    obtain rfl : s.move T m = s' := Option.some.inj hs
    exact ⟨fun u => (hI.holds u).frame T rfl rfl rfl fun hne => hsteady hne u, hI.kept⟩

/-- **EVERY READING IS LABELLED WITH THE FUNCTION IT WAS MEASURED IN**: along every run of
    any tasks on one meter, with any failures and reconnections, if the function of the
    meter changes only while no `read_measurement` is between its two transactions. -/
theorem wellLabelled (m : M) {c : Config (Server V) Exc (Answer V) ι (Room M V ι)}
    (h : Reach (room T timeout float) (Steady T float) (initial m) c) : WellLabelled float c := by
  have hstart : Inv T float (initial (V := V) (ι := ι) m).shared fun _ => .ready .other :=
    ⟨fun t => trivial, fun x hx => nomatch hx⟩
  obtain ⟨ph, hI, hA⟩ := (sound T float).reach hstart (fun t => trivial) h
  refine ⟨fun t m hm => ?_, fun t r hr => ?_, hI.kept⟩
  · obtain ⟨g, hg, raw, rfl, hunit, hval⟩ := (hA t).outcome (by rw [hm]; rfl)
    have ht := hI.holds t
    rw [hg] at ht
    exact ⟨raw, ht, hunit, hval⟩
  · obtain ⟨g, hg, f, raw, rfl, hright⟩ := (hA t).outcome (by rw [hr]; rfl)
    have ht : c.shared.sample t = some (f, raw) := by
      have := hI.holds t
      rw [hg] at this
      exact this
    rw [ht]
    exact hright

/-! ## Two runs on the mock -/

instance (s : Room M V Bool) (a : Action (room T timeout float : System _ _ _ Bool _))
    (s' : Room M V Bool) : Decidable (Steady T float s a s') :=
  inferInstanceAs (Decidable (_ → ∀ _, _ → _))

/-- The one reading these runs take: `1000 * 0.991`. -/
def kiloohm : Meter Mock.MockTransport :=
  mockMeter fun q => if q = 991 then "991.0".toList else "0.0".toList

/-- A `float` that knows one reply. -/
def parse (raw : Str) : Option Rat := if raw = "991.0".toList then some 991 else none

/-- A call of the task `t` and its success. -/
def call (t : Bool) : List (Action (room kiloohm 2 parse : System _ _ _ Bool _)) :=
  [.invoke t, .answer t (.done false)]

/-- One task measures, and between its two transactions the other selects resistance. -/
def relabelled : List (Action (room kiloohm 2 parse : System _ _ _ Bool _)) :=
  [.start false .measure] ++ call false
    ++ [.start true (.other (Driver.setFunction .RESISTANCE defaultRtdType))] ++ call true
    ++ call false

/-- What a task that has measured returned. -/
def measured : Point (Server V) Exc (Answer V) → Option (Measurement V)
  | .ready (.ret (.measurement m)) => some m
  | _ => none

theorem eq_of_measured {q : Point (Server V) Exc (Answer V)} {m : Measurement V}
    (h : measured q = some m) : q = .ready (.ret (.measurement m)) := by
  match q, h with
  | .ready (.ret (.measurement _)), rfl => rfl

/-- **A reading with the wrong label**: resistance, measured as a voltage. -/
theorem not_wellLabelled :
    ¬ ∀ (V M ι : Type) (_ : DecidableEq ι) (T : Meter M) (timeout : Rat)
      (float : Str → Option V) (m : M) (c : Config (Server V) Exc (Answer V) ι (Room M V ι)),
      Reach (room T timeout float) (NoPanel T float) (initial m) c → WellLabelled float c := by
  intro h
  have hrun : ((runWithin (room kiloohm 2 parse) (NoPanel kiloohm parse) (initial {})
      relabelled).map fun c => (c.shared.sample false,
        (measured (c.point false)).map fun m => (m.function, m.value, m.unit))) =
      some (some (.RESISTANCE, "991.0".toList), some (.VOLT_DC, 991, "V".toList)) := by
    decide +kernel
  obtain ⟨c, hc, hend⟩ := Option.map_eq_some_iff.mp hrun
  obtain ⟨hsample, hpoint⟩ := Prod.mk.inj hend
  have hright := h Rat Mock.MockTransport Bool inferInstance kiloohm 2 parse {} c
    (reach_of_runWithin hc)
  obtain ⟨m, hm, hlabel⟩ := Option.map_eq_some_iff.mp hpoint
  obtain ⟨raw, hraw, -⟩ := hright.measurement false m (eq_of_measured hm)
  have hfunction : m.function = .VOLT_DC := (Prod.mk.inj hlabel).1
  rw [hsample, hfunction] at hraw
  have hsame : Function.RESISTANCE = .VOLT_DC := congrArg Prod.fst (Option.some.inj hraw)
  exact absurd hsame (by decide)

/-- The same two requests, one after the other. -/
theorem wellLabelled_resistance : ∃ c, runWithin (room kiloohm 2 parse) (Steady kiloohm parse)
      (initial {}) ([.start true (.other (Driver.setFunction .RESISTANCE defaultRtdType))]
        ++ call true ++ [.start false .poll] ++ call false ++ call false
        ++ [.invoke false, .answer false (.clock 0)] ++ call false) = some c ∧
    WellLabelled parse c := by
  have hrun : (runWithin (room kiloohm 2 parse) (Steady kiloohm parse)
      (initial {}) ([.start true (.other (Driver.setFunction .RESISTANCE defaultRtdType))]
        ++ call true ++ [.start false .poll] ++ call false ++ call false
        ++ [.invoke false, .answer false (.clock 0)] ++ call false)).isSome = true := by
    decide +kernel
  obtain ⟨c, hc⟩ := Option.isSome_iff_exists.mp hrun
  exact ⟨c, hc, wellLabelled kiloohm parse {} (reach_of_runWithin hc)⟩

end Readings
