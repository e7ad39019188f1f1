import XdmServer.Turns

/-! # Snapshots of the configuration

    `read_state` asks for the function, the rate, the automatic range and the range in
    four turns.  A snapshot is coherent if the meter was in just that configuration at
    some moment of the call.  `coherent` says that all snapshots are, and that the answer
    of `/api/status` names one function, in every run in which nothing changes a field
    that a snapshot in progress has already read. -/

namespace Snapshots

open PyText Coroutine Commands Device Driver Interleaving Turns

variable {V M ι : Type} [DecidableEq ι] (T : Meter M) {timeout : Rat} (float : Str → Option V)

/-- Every snapshot is a configuration of a moment between the call and its return; the
    function at the top of a status is the one its state names. -/
structure Coherent (c : Config (Server V) Exc (Answer V) ι (Room M V ι)) : Prop where
  state : ∀ t d, c.point t = .ready (.ret (.state d)) → d ∈ c.shared.moments t
  status : ∀ t st, c.point t = .ready (.ret (.status st)) →
    ∃ d ∈ c.shared.recent t, st.state = StateOut.of d ∧ st.function = d.function.value

/-- The queries of `read_state` before the last. -/
def queries : List (Str × Bool) :=
  [(FUNCTION, true), (RATE_QUERY, true), (AUTO_RANGE_QUERY, true)]

/-- The transactions of `/api/status` before its `read_state`. -/
def reading : List (Str × Bool) := [(FUNCTION, true), (MEASURE, true)]

/-- Whether a request makes a snapshot, and whether a reading goes before it. -/
def leads : Request → Option Bool
  | .state => some false
  | .status _ _ => some true
  | _ => none

/-- How many fields the queries of a `read_state` in progress have told. -/
def fieldsTold (asked : List (Str × Bool)) : Nat :=
  if asked = queries.take 1 then 1
  else if asked = queries.take 2 then 2
  else if asked = queries then 3
  else 0

/-- How many fields the answer of a request depends on: the function that a status is
    labelled with counts. -/
def fieldsRead : Option Bool → List (Str × Bool) → Nat
  | none, _ => 0
  | some false, asked => fieldsTold asked
  | some true, asked =>
      if asked = reading.take 1 ∨ asked = reading then 1
      else fieldsTold (asked.drop reading.length)

/-- The same, but for a snapshot that is whole without a `RANGE?`. -/
def fieldsHeld (s : Room M V ι) (u : ι) : Nat :=
  let k := fieldsRead (leads (s.serving u)) (s.asked u)
  if k = 3 ∧ (s.recent u).head?.any (fun d => d.function ∈ NO_RANGE_QUERY) then 0 else k

/-- The first `k` fields of two configurations are the same. -/
def Agree (k : Nat) (d d' : DeviceState) : Prop :=
  (1 ≤ k → d.function = d'.function) ∧ (2 ≤ k → d.rate = d'.rate) ∧
    (3 ≤ k → d.autoRange = d'.autoRange)

instance (k : Nat) (d d' : DeviceState) : Decidable (Agree k d d') :=
  inferInstanceAs (Decidable (_ ∧ _ ∧ _))

/-- The call does not fail under a task that awaits the answer to its `RANGE?`. -/
def RangeAnswered (s : Room M V ι) : Action (room T timeout float : System _ _ _ ι _) → Prop
  | .answer t (.failed _ _ _) => fieldsHeld s t ≠ 3
  | _ => True

/-- No step changes a field that a snapshot in progress has read, and no `RANGE?` of one
    fails. -/
def Undisturbed (s : Room M V ι) (a : Action (room T timeout float : System _ _ _ ι _))
    (s' : Room M V ι) : Prop :=
  (∀ u, Agree (fieldsHeld s u) (T.config s'.meter) (T.config s.meter)) ∧
    RangeAnswered T float s a

/-! ## The stages of a snapshot -/

/-- What a task knows of its snapshot. -/
inductive Stage where
  | other
  /-- It is to begin, after a reading or without. -/
  | fresh (lead : Bool)
  /-- The status has a function, and its value too if `measured`. -/
  | label (f : Function) (measured : Bool)
  /-- The first `k` fields of `d` are read. -/
  | partway (lead : Bool) (k : Nat) (d : DeviceState)
  | whole (d : DeviceState)

/-- What a snapshot with `k` fields asks next. -/
def next : Nat → Str
  | 1 => RATE_QUERY
  | 2 => AUTO_RANGE_QUERY
  | _ => RANGE_QUERY

/-- What an answer makes of a snapshot with `k` fields. -/
def filled (lead : Bool) (d : DeviceState) (raw : Str) : Nat → Stage → Prop
  | 1, g => ∃ r, Rate.fromDevice raw = some r ∧ g = .partway lead 2 { d with rate := r }
  | 2, g =>
      let d' := { d with autoRange := strip raw = "1".toList }
      g = if d.function ∈ NO_RANGE_QUERY then .whole { d' with range := none }
        else .partway lead 3 d'
  | _, g => g = .whole { d with range := some (unquote raw) }

/-- The queries come in order, and the functions that two of them tell are the same. -/
def snapshots : Protocol (Server V) Exc where
  Ghost := Stage
  Held := Stage
  invoke g o h := h = g ∧ match g, o with
    | .fresh _, .inl c => c = .query FUNCTION none
    | .label _ false, .inl c => c = .query MEASURE none
    | .label _ true, .inl c => c = .query FUNCTION none
    | .partway _ k _, .inl c => c = .query (next k) none
    | .whole _, .inl _ => False
    | .other, .inl _ => True
    | _, .inr _ => True
  answer h o r g := match h, o, r with
    | .fresh false, .inl (.query _ _), .ok raw => ∃ f d, Function.fromDevice raw = some f ∧
        d.function = f ∧ g = .partway false 1 d
    | .fresh true, .inl (.query _ _), .ok raw =>
        ∃ f, Function.fromDevice raw = some f ∧ g = .label f false
    | .label f false, .inl (.query _ _), .ok _ => g = .label f true
    | .label f true, .inl (.query _ _), .ok raw => ∃ d, Function.fromDevice raw = some f ∧
        d.function = f ∧ g = .partway true 1 d
    | .partway lead k d, .inl (.query _ _), .ok raw => filled lead d raw k g
    -- a meter in a function that has a range answers `RANGE?`
    | .partway _ 3 _, .inl _, .error _ => False
    | .whole d, .inl _, _ => g = .whole d
    | h, .inr _, _ => g = h
    | _, .inl _, _ => g = .other

/-- A task that makes no snapshot does with the manager what it likes. -/
theorem maintains_other {α : Type} (p : Coro (Server V) Exc α) :
    (snapshots (V := V)).Maintains (fun g => g = .other) p :=
  Protocol.maintains_of_ops (fun o g hg => by
    subst hg
    cases o with
    | inl c => exact ⟨.other, ⟨rfl, trivial⟩, fun r g' h => h⟩
    | inr o => exact ⟨.other, ⟨rfl, trivial⟩, fun r g' h => h⟩) p

/-- The clock, the broadcaster and the database leave every stage as it is. -/
theorem returns_hub (o : HubOp V) (g : Stage) :
    (snapshots (V := V)).Returns (.op (S := Server V) (.inr o)) (fun _ g' => g' = g) g := by
  refine Protocol.returns_op g ⟨rfl, ?_⟩ ?_
  · cases g with
    | label f measured => cases measured <;> trivial
    | _ => trivial
  · intro r g' h
    cases g with
    | fresh lead => cases lead <;> exact h
    | label f measured => cases measured <;> exact h
    | _ => exact h

/-- A query, by what the protocol says of its answer. -/
theorem returns_query {command : Str} {g : Stage}
    (h : (snapshots (V := V)).invoke g (.inl (.query command none)) g) :
    (snapshots (V := V)).left.Returns (query command)
      (fun raw => (snapshots (V := V)).answer g (.inl (.query command none)) (.ok raw)) g :=
  Protocol.returns_op (P := (snapshots (V := V)).left) g h fun _ _ hans => hans

/-- The last query of `read_state`, where the function has a range. -/
theorem returns_getRange {lead : Bool} {d : DeviceState} {g : Stage}
    (hg : g = if d.function ∈ NO_RANGE_QUERY then .whole { d with range := none }
      else .partway lead 3 d) :
    (snapshots (V := V)).left.Returns (getRange (some d.function))
      (fun range g => g = .whole { d with range := range }) g := by
  show (snapshots (V := V)).left.Returns (getRangeOf d.function) _ _
  unfold getRangeOf
  by_cases hno : d.function ∈ NO_RANGE_QUERY
  · rw [if_pos hno]
    exact Protocol.returns_pure (hg.trans (if_pos hno))
  · rw [if_neg hno] at hg ⊢
    subst hg
    refine (Protocol.wp_tryExcept ..).mpr ((Protocol.wp_bind ..).mpr
      ((Protocol.wp_op ..).mpr ⟨_, ⟨rfl, rfl⟩, ?_⟩))
    -- the handler would swallow a failure; the protocol has none here
    rintro (e | raw) g hg
    · exact hg.elim
    · obtain rfl : g = _ := hg
      intro range hrange
      obtain rfl := Except.ok.inj hrange
      rfl

/-- **`read_state`** after its first query returns the snapshot that is then whole. -/
theorem returns_rest (lead : Bool) (d : DeviceState) :
    (snapshots (V := V)).left.Returns (do
        let rate ← getRate
        let autoRange ← getAutoRange
        let range ← getRange (some d.function)
        pure (⟨d.function, rate, autoRange, range⟩ : DeviceState))
      (fun d' g => g = .whole d' ∧ d'.function = d.function) (.partway lead 1 d) := by
  have hrate : (snapshots (V := V)).left.Returns getRate
      (fun rate g => g = .partway lead 2 { d with rate := rate }) (.partway lead 1 d) := by
    refine (returns_query ⟨rfl, rfl⟩).bind ?_
    rintro raw g ⟨rate, hparse, rfl⟩
    refine (returns_parsed (Rate.fromDevice raw) _).mono ?_
    rintro rate' g ⟨rfl, hrate'⟩
    rw [Option.some.inj (hrate'.symm.trans hparse)]
  refine hrate.bind ?_
  rintro rate g rfl
  have hauto : (snapshots (V := V)).left.Returns getAutoRange (fun autoRange g => g =
      if d.function ∈ NO_RANGE_QUERY then
        Stage.whole { d with rate := rate, autoRange := autoRange, range := none }
      else .partway lead 3 { d with rate := rate, autoRange := autoRange })
      (.partway lead 2 { d with rate := rate }) := by
    refine (returns_query ⟨rfl, rfl⟩).bind ?_
    intro raw g hg
    exact Protocol.returns_pure hg
  refine hauto.bind ?_
  intro autoRange g hg
  refine (returns_getRange (d := { d with rate := rate, autoRange := autoRange }) hg).bind ?_
  rintro range g rfl
  exact Protocol.returns_pure ⟨rfl, rfl⟩

/-- What is known of a reading and of the stage in which it has been taken. -/
def Labelled (r : Reading V) (g : Stage) : Prop :=
  ∃ f, g = .label f true ∧ r.function = f.value

/-- `read_measurement` labels its value with the function that was asked. -/
theorem returns_readMeasurement :
    (snapshots (V := V)).left.Returns (readMeasurement float)
      (fun m g => g = .label m.function true) (.fresh true) := by
  have hfunction : (snapshots (V := V)).left.Returns getFunction
      (fun f g => g = .label f false) (.fresh true) := by
    refine (returns_query ⟨rfl, rfl⟩).bind ?_
    rintro raw g ⟨f, hparse, rfl⟩
    refine (returns_parsed (Function.fromDevice raw) _).mono ?_
    rintro f' g ⟨rfl, hf'⟩
    rw [Option.some.inj (hf'.symm.trans hparse)]
  refine hfunction.bind ?_
  rintro f g rfl
  refine (returns_query ⟨rfl, rfl⟩).bind ?_
  rintro raw g rfl
  refine (returns_parsed (float raw) _).bind ?_
  rintro v g ⟨rfl, -⟩
  exact Protocol.returns_pure rfl

/-- `_take_reading` labels its reading with the function that was asked. -/
theorem returns_takeReading (database : Bool) :
    (snapshots (V := V)).Returns (takeReading float database) Labelled (.fresh true) := by
  refine (returns_readMeasurement float).inl.bind ?_
  rintro m g rfl
  refine (returns_hub .time _).bind ?_
  rintro timestamp g rfl
  cases database with
  | false => exact Protocol.returns_pure ⟨m.function, rfl, rfl⟩
  | true =>
      refine (returns_hub (.insertReading _) _).bind ?_
      rintro _ g rfl
      exact Protocol.returns_pure ⟨m.function, rfl, rfl⟩

/-- `read_state` from the beginning. -/
theorem returns_readState :
    (snapshots (V := V)).left.Returns readState (fun d g => g = .whole d) (.fresh false) := by
  refine Protocol.Returns.bind (Φ := fun f g => ∃ d : DeviceState, d.function = f ∧
    g = Stage.partway false 1 d) ?_ ?_
  · refine (returns_query ⟨rfl, rfl⟩).bind ?_
    rintro raw g ⟨f, d, hparse, rfl, rfl⟩
    refine (returns_parsed (Function.fromDevice raw) _).mono ?_
    rintro f' g ⟨rfl, hf'⟩
    exact ⟨d, Option.some.inj (hparse.symm.trans hf'), rfl⟩
  · rintro _ g ⟨d, rfl, rfl⟩
    exact (returns_rest false d).mono fun d' g h => h.1

/-- `_read_state` after the reading of a status. -/
theorem returns_readStateOut (f : Function) :
    (snapshots (V := V)).left.Returns readStateOut (fun st g =>
      ∃ d, g = .whole d ∧ d.function = f ∧ st = StateOut.of d) (.label f true) := by
  have hstate : (snapshots (V := V)).left.Returns readState (fun d g =>
      g = .whole d ∧ d.function = f) (.label f true) := by
    refine Protocol.Returns.bind (Φ := fun f' g => ∃ d : DeviceState, d.function = f ∧ f' = f ∧
      g = Stage.partway true 1 d) ?_ ?_
    · refine (returns_query ⟨rfl, rfl⟩).bind ?_
      rintro raw g ⟨d, hparse, hd, rfl⟩
      refine (returns_parsed (Function.fromDevice raw) _).mono ?_
      rintro f' g ⟨rfl, hf'⟩
      exact ⟨d, hd, Option.some.inj (hf'.symm.trans hparse), rfl⟩
    · rintro _ g ⟨d, rfl, rfl, rfl⟩
      exact returns_rest true d
  refine hstate.bind ?_
  rintro d g ⟨rfl, hf⟩
  exact Protocol.returns_pure ⟨d, rfl, hf, rfl⟩

/-- What an answer says of the stage in which a request ends. -/
def ends : Except Exc (Answer V) → Stage → Prop
  | .ok (.state d), g => g = .whole d
  | .ok (.status st), g =>
      ∃ d, g = .whole d ∧ st.state = StateOut.of d ∧ st.function = d.function.value
  | _, _ => True

/-- The stage in which a request begins. -/
def begins (r : Request) : Stage :=
  match leads r with
  | some lead => .fresh lead
  | none => .other

/-- `/api/status` names the function of its snapshot. -/
theorem returns_status (database : Bool) (seconds : Rat) :
    (snapshots (V := V)).Returns (Driver.status float database seconds) (fun st g =>
      ∃ d, g = .whole d ∧ st.state = StateOut.of d ∧ st.function = d.function.value)
      (.fresh true) := by
  refine (returns_validateSeconds seconds _).bind ?_
  rintro _ g ⟨rfl, -⟩
  refine (returns_takeReading float database).bind ?_
  rintro r g ⟨f, rfl, hlabel⟩
  refine (returns_readStateOut f).inl.bind ?_
  rintro _ g ⟨d, rfl, rfl, rfl⟩
  cases database with
  | false => exact Protocol.returns_pure ⟨d, rfl, rfl, hlabel⟩
  | true =>
      refine (returns_hub (.aggregate _ _) _).bind ?_
      rintro agg g rfl
      exact Protocol.returns_pure ⟨d, rfl, rfl, hlabel⟩

/-- A request that makes no snapshot. -/
theorem returns_other {α : Type} (p : Coro (Server V) Exc α) :
    (snapshots (V := V)).Returns p (fun _ _ => True) .other :=
  ((maintains_other p).returns rfl).mono fun _ _ _ => trivial

/-- **Every request** that returns a snapshot returns the whole one. -/
theorem returns_code (r : Request) :
    (snapshots (V := V)).Returns (r.code float) (fun a g => ends (.ok a) g) (begins r) := by
  cases r with
  | measure =>
      refine (returns_other (readMeasurement float).inl).bind ?_
      intro m g _
      exact Protocol.returns_pure trivial
  | poll =>
      refine (returns_other (pollOnce float)).bind ?_
      intro r g _
      exact Protocol.returns_pure trivial
  | take database =>
      refine (returns_other (takeReading float database)).bind ?_
      intro r g _
      exact Protocol.returns_pure trivial
  | other p =>
      refine (returns_other p.inl).bind ?_
      intro u g _
      exact Protocol.returns_pure trivial
  | state =>
      refine (Protocol.Returns.inl returns_readState).bind ?_
      intro d g h
      exact Protocol.returns_pure h
  | status database seconds =>
      refine (returns_status float database seconds).bind ?_
      intro st g h
      exact Protocol.returns_pure h

/-- It obeys the protocol, however it ends. -/
theorem wp_code (r : Request) :
    (snapshots (V := V)).wp (r.code float) ends (begins r) := by
  refine Protocol.wp_mono (returns_code float r) ?_
  rintro (e | a) g h
  · trivial
  · exact h a rfl

/-! ## The invariant -/

theorem Agree.trans {k : Nat} {d₁ d₂ d₃ : DeviceState} (h₁ : Agree k d₁ d₂)
    (h₂ : Agree k d₂ d₃) : Agree k d₁ d₃ :=
  ⟨fun hk => (h₁.1 hk).trans (h₂.1 hk), fun hk => (h₁.2.1 hk).trans (h₂.2.1 hk),
    fun hk => (h₁.2.2 hk).trans (h₂.2.2 hk)⟩

theorem Agree.of_eq {k : Nat} {d d' : DeviceState} (h : d = d') : Agree k d d' :=
  h ▸ ⟨fun _ => rfl, fun _ => rfl, fun _ => rfl⟩

theorem Agree.eq {d d' : DeviceState} (h : Agree 3 d d') : d = { d' with range := d.range } := by
  obtain ⟨function, rate, autoRange, range⟩ := d
  obtain ⟨rfl, rfl, rfl⟩ : function = d'.function ∧ rate = d'.rate ∧ autoRange = d'.autoRange :=
    ⟨h.1 (by decide), h.2.1 (by decide), h.2.2 (by decide)⟩
  rfl

/-- The stage that a phase has got to. -/
def stage : Phase (snapshots (V := V)) → Stage
  | .ready g => g
  | .waiting h => h

/-- What a request has asked before its `read_state`. -/
def before : Bool → List (Str × Bool)
  | false => []
  | true => reading

/-- What a task knows is so. -/
def Holds (s : Room M V ι) (t : ι) : Stage → Prop
  | .other => True
  | .fresh lead => leads (s.serving t) = some lead ∧ s.asked t = []
  | .label f measured => leads (s.serving t) = some true ∧
      s.asked t = (if measured then reading else reading.take 1) ∧
      (T.config s.meter).function = f
  | .partway lead k d => leads (s.serving t) = some lead ∧ (k = 1 ∨ k = 2 ∨ k = 3) ∧
      s.asked t = before lead ++ queries.take k ∧ Agree k (T.config s.meter) d ∧
      (k = 3 → d.function ∉ NO_RANGE_QUERY) ∧
      ∃ d₀, (s.recent t).head? = some d₀ ∧ d₀.function = d.function
  | .whole d => d ∈ s.moments t ∧ d ∈ s.recent t

/-- Every task's stage holds of the room. -/
def Inv (s : Room M V ι) (ph : ι → Phase (snapshots (V := V))) : Prop :=
  ∀ t, Holds T s t (stage (ph t))

omit [DecidableEq ι] in
/-- A status that has its label depends on the function. -/
theorem fieldsHeld_label {s : Room M V ι} {t : ι} {f : Function} {measured : Bool}
    (h : Holds T s t (.label f measured)) : fieldsHeld s t = 1 := by
  obtain ⟨hlead, hasked, -⟩ := h
  have hread : fieldsRead (leads (s.serving t)) (s.asked t) = 1 := by
    rw [hlead, hasked]
    cases measured <;> decide
  unfold fieldsHeld
  rw [hread, if_neg fun h => absurd h.1 (by decide)]

omit [DecidableEq ι] in
/-- A snapshot depends on the fields it has. -/
theorem fieldsHeld_partway {s : Room M V ι} {t : ι} {lead : Bool} {k : Nat} {d : DeviceState}
    (h : Holds T s t (.partway lead k d)) : fieldsHeld s t = k := by
  obtain ⟨hlead, hk, hasked, -, hrange, d₀, hhead, hfunction⟩ := h
  have hread : fieldsRead (leads (s.serving t)) (s.asked t) = k := by
    rw [hlead, hasked]
    obtain rfl | rfl | rfl := hk <;> cases lead <;> decide
  unfold fieldsHeld
  rw [hread, hhead, Option.any_some, hfunction]
  exact if_neg fun h => hrange h.1 (of_decide_eq_true h.2)

/-- Nothing of the task's own happened between the two. -/
structure Follows (s s' : Room M V ι) (u : ι) : Prop where
  serving : s'.serving u = s.serving u
  asked : s'.asked u = s.asked u
  moments : s.moments u <+: s'.moments u
  recent : s.recent u <+: s'.recent u

theorem head_of_prefix {l l' : List DeviceState} {d : DeviceState} (h : l <+: l')
    (hd : l.head? = some d) : l'.head? = some d := by
  obtain ⟨r, rfl⟩ := h
  rw [List.head?_append, hd]
  rfl

omit [DecidableEq ι] in
/-- What a task knows stays so while others change no field that it has read. -/
theorem Holds.frame {s s' : Room M V ι} {u : ι} {g : Stage} (h : Holds T s u g)
    (hf : Follows s s' u)
    (hagree : Agree (fieldsHeld s u) (T.config s'.meter) (T.config s.meter)) :
    Holds T s' u g := by
  cases g with
  | other => trivial
  | fresh lead => exact ⟨hf.serving ▸ h.1, hf.asked.trans h.2⟩
  | label f measured =>
      rw [fieldsHeld_label T h] at hagree
      exact ⟨hf.serving ▸ h.1, hf.asked.trans h.2.1, (hagree.1 (Nat.le_refl 1)).trans h.2.2⟩
  | partway lead k d =>
      rw [fieldsHeld_partway T h] at hagree
      obtain ⟨hlead, hk, hasked, hd, hrange, d₀, hhead, hfunction⟩ := h
      exact ⟨hf.serving ▸ hlead, hk, hf.asked.trans hasked, hagree.trans hd, hrange, d₀,
        head_of_prefix hf.recent hhead, hfunction⟩
  | whole d => exact ⟨hf.moments.subset h.1, hf.recent.subset h.2⟩

/-- A step of one task: what it has come to know, and everything the others know. -/
theorem Inv.update {s s' : Room M V ι} {ph : ι → Phase (snapshots (V := V))} (h : Inv T s ph)
    {t : ι} {φ : Phase (snapshots (V := V))} (ht : Holds T s' t (stage φ))
    (hf : ∀ u, u ≠ t → Follows s s' u)
    (hagree : ∀ u, Agree (fieldsHeld s u) (T.config s'.meter) (T.config s.meter)) :
    Inv T s' (Function.update ph t φ) :=
  forall_update (R := fun u φ => Holds T s' u (stage φ)) ht fun u hu =>
    (h u).frame T (hf u hu) (hagree u)

/-! ## What a turn leaves -/

theorem follows_turn (s : Room M V ι) (t : ι) (command : Str) (m : M) (answer : Option Str)
    (success : Bool) (u : ι) (hu : u ≠ t) : Follows s (s.turn T t command m answer success) u where
  serving := rfl
  asked := Function.update_of_ne hu ..
  moments := List.prefix_append _ _
  recent := by
    show s.recent u <+: (if command = FUNCTION then
      Function.update (s.move T m).recent t [T.config m] else (s.move T m).recent) u
    by_cases hc : command = FUNCTION
    · rw [if_pos hc, Function.update_of_ne hu]
      exact List.prefix_append _ _
    · rw [if_neg hc]
      exact List.prefix_append _ _

theorem asked_turn (s : Room M V ι) (t : ι) (command : Str) (m : M) (answer : Option Str)
    (success : Bool) :
    (s.turn T t command m answer success).asked t = s.asked t ++ [(command, success)] :=
  Function.update_self ..

theorem recent_turn {s : Room M V ι} {t : ι} {command : Str} {m : M} {answer : Option Str}
    {success : Bool} (h : command ≠ FUNCTION) :
    (s.turn T t command m answer success).recent t = s.recent t ++ [T.config m] :=
  congrFun (if_neg h) t

/-- The answer to `FUNC1?` is told of the first of the recent configurations. -/
theorem recent_turn_function {s : Room M V ι} {t : ι} {m : M} {answer : Option Str}
    {success : Bool} : (s.turn T t FUNCTION m answer success).recent t = [T.config m] :=
  Function.update_self ..

/-! ## Every step keeps the invariant -/

/-- What the meter answers to a query of the snapshot, and what the task then knows. -/
theorem holds_filled {s s' : Room M V ι} {t : ι} {greeted lead : Bool} {k : Nat}
    {d : DeviceState} (h : Holds T s t (.partway lead k d))
    (hsome : (T.turn s.meter greeted true (next k)).1.isSome = true)
    (hs' : s' = s.turn T t (next k) (T.turn s.meter greeted true (next k)).2
      (T.turn s.meter greeted true (next k)).1 true) :
    ∃ raw g, (T.turn s.meter greeted true (next k)).1 = some raw ∧ filled lead d raw k g ∧
      Holds T s' t g := by
  obtain ⟨hlead, hk, hasked, hd, hrange, d₀, hhead, hfunction⟩ := h
  have hnext : next k ∈ [FUNCTION, MEASURE, RATE_QUERY, AUTO_RANGE_QUERY, RANGE_QUERY, LOCAL] ∧
      next k ≠ FUNCTION := by
    obtain rfl | rfl | rfl := hk <;> decide
  obtain ⟨m₁, raw, hm₁, hanswer, hraw, hconfig⟩ := T.turn_answer hnext.1 hsome
  have hmeter : T.config s'.meter = T.config s.meter := hs' ▸ hconfig
  have hasked' : s'.asked t = before lead ++ queries.take k ++ [(next k, true)] := by
    rw [hs', asked_turn, hasked]
  have hrecent : s'.recent t = s.recent t ++ [T.config s.meter] := by
    rw [hs', recent_turn T hnext.2, hconfig]
  have hmoments : s'.moments t = s.moments t ++ [T.config s.meter] := by
    rw [hs', ← hconfig]
    rfl
  have hlead' : leads (s'.serving t) = some lead := hs' ▸ hlead
  have hhead' : (s'.recent t).head? = some d₀ :=
    head_of_prefix ⟨_, hrecent.symm⟩ hhead
  -- a snapshot that is whole is the configuration of this very moment
  have hwhole : ∀ d', T.config s.meter = d' → Holds T s' t (.whole d') := by
    rintro d' rfl
    refine ⟨?_, ?_⟩
    · rw [hmoments]
      exact List.mem_append_right _ (List.mem_singleton.mpr rfl)
    · rw [hrecent]
      exact List.mem_append_right _ (List.mem_singleton.mpr rfl)
  have hf := hd.1
  obtain rfl | rfl | rfl := hk
  · refine ⟨raw, .partway lead 2 { d with rate := (T.config s.meter).rate }, hraw,
      ⟨_, hm₁ ▸ T.rate_answer m₁ raw hanswer, rfl⟩, hlead', .inr (.inl rfl), ?_, ?_,
      (fun h => absurd h (by decide)), d₀, hhead', hfunction⟩
    · rw [hasked', List.append_assoc]
      rfl
    · rw [hmeter]
      exact ⟨fun _ => hf (Nat.le_refl 1), fun _ => rfl, fun h => absurd h (by decide)⟩
  · have hauto : decide (strip raw = "1".toList) = (T.config s.meter).autoRange :=
      hm₁ ▸ T.autoRange_answer m₁ raw hanswer
    have hthree : Agree 3 (T.config s.meter)
        { d with autoRange := decide (strip raw = "1".toList) } :=
      ⟨fun _ => hf (by decide), fun _ => hd.2.1 (Nat.le_refl 2), fun _ => hauto.symm⟩
    -- the snapshot ends here in a function without a range
    by_cases hno : d.function ∈ NO_RANGE_QUERY
    · refine ⟨raw, .whole { d with
        autoRange := decide (strip raw = "1".toList)
        range := none }, hraw, (if_pos hno).symm, hwhole _ ?_⟩
      have hnone : (T.config s.meter).range = none :=
        T.no_range s.meter (by rw [hf (by decide)]; exact hno)
      rw [hthree.eq, hnone]
    · refine ⟨raw, .partway lead 3 { d with autoRange := decide (strip raw = "1".toList) }, hraw,
        (if_neg hno).symm, hlead', .inr (.inr rfl), ?_, ?_, fun _ => hno, d₀,
        hhead', hfunction⟩
      · rw [hasked', List.append_assoc]
        rfl
      · rw [hmeter]
        exact hthree
  · refine ⟨raw, _, hraw, rfl, hwhole _ ?_⟩
    have hno : (T.config m₁).function ∉ NO_RANGE_QUERY := by
      rw [hm₁, hf (by decide)]
      exact hrange rfl
    obtain ⟨r, hr, hunquote⟩ := T.range_answer m₁ hno
    obtain rfl : r = raw := Option.some.inj (hr.symm.trans hanswer)
    rw [hd.eq, ← hm₁, hunquote]

/-- The answer to a `FUNC1?`, or to a `MEAS1?` before it. -/
theorem holds_told {s s' : Room M V ι} {t : ι} {greeted : Bool} {q : Str}
    (hq : q = FUNCTION ∨ q = MEASURE)
    (hsome : (T.turn s.meter greeted true q).1.isSome = true)
    (hs' : s' = s.turn T t q (T.turn s.meter greeted true q).2
      (T.turn s.meter greeted true q).1 true) :
    ∃ raw, (T.turn s.meter greeted true q).1 = some raw ∧
      T.config s'.meter = T.config s.meter ∧ s'.asked t = s.asked t ++ [(q, true)] ∧
      (q = FUNCTION → Function.fromDevice raw = some (T.config s.meter).function ∧
        s'.recent t = [T.config s.meter]) := by
  have hmem : q ∈ [FUNCTION, MEASURE, RATE_QUERY, AUTO_RANGE_QUERY, RANGE_QUERY, LOCAL] := by
    obtain rfl | rfl := hq <;> decide
  obtain ⟨m₁, raw, hm₁, hanswer, hraw, hconfig⟩ := T.turn_answer hmem hsome
  refine ⟨raw, hraw, hs' ▸ hconfig, ?_, ?_⟩
  · rw [hs', asked_turn]
  · rintro rfl
    refine ⟨hm₁ ▸ T.function_answer m₁ raw hanswer, ?_⟩
    rw [hs', recent_turn_function, hconfig]

/-- What the protocol makes of an answer. -/
theorem answer_of_value {h g : Stage} {command raw : Str} {y : Option Str} (hy : y = some raw)
    (hg : (snapshots (V := V)).answer h (.inl (.query command none)) (.ok raw) g) :
    (snapshots (V := V)).answer h (.inl (.query command none))
      (Call.value (.query command none) y) g := by
  subst hy
  exact hg

omit [DecidableEq ι] in
/-- A task that has its `RANGE?` answered by silence is in no function that has a range. -/
theorem not_silent {s : Room M V ι} {t : ι} {greeted lead : Bool} {d : DeviceState}
    (h : Holds T s t (.partway lead 3 d)) :
    (T.turn s.meter greeted true RANGE_QUERY).1 ≠ none := by
  obtain ⟨-, -, -, hd, hrange, -⟩ := h
  obtain ⟨m₁, hm₁, hexec⟩ := T.turn_exec s.meter greeted RANGE_QUERY
  have hno : (T.config m₁).function ∉ NO_RANGE_QUERY := by
    rw [hm₁, hd.1 (by decide)]
    exact hrange rfl
  obtain ⟨r, hr, -⟩ := T.range_answer m₁ hno
  rw [hexec, hr]
  exact fun h => nomatch h

/-- A call of the manager comes out. -/
theorem inv_call {s s' : Room M V ι} {ph : ι → Phase (snapshots (V := V))} {t : ι} {c : Call}
    {h : Stage} {x : Outcome V} {r : Except Exc c.Res} (hI : Inv T s ph)
    (hph : ph t = .waiting h) (hinv : ∃ g, (snapshots (V := V)).invoke g (.inl c) h)
    (hok : Undisturbed T float s (.answer t x : Action (room T timeout float)) s')
    (hs : s.call T timeout t c x = some (r, s')) :
    ∃ g, (snapshots (V := V)).answer h (.inl c) r g ∧
      Inv T s' (Function.update ph t (.ready g)) := by
  have hh : Holds T s t h := by
    have := hI t
    rw [hph] at this
    exact this
  obtain ⟨_, rfl, hcall⟩ := hinv
  have hupdate : ∀ {m answer success} g, s' = s.turn T t c.command m answer success →
      Holds T s' t g → Inv T s' (Function.update ph t (.ready g)) := by
    rintro m answer success g rfl hg
    exact hI.update T hg (follows_turn T s t _ _ _ _) hok.1
  obtain ⟨greeted, hsome, rfl, hs'⟩ | ⟨greeted, executed, e, rfl, hs', hx⟩ := call_cases T hs
  · cases h with
    | other => exact ⟨.other, rfl, hupdate _ hs' trivial⟩
    | whole d => exact hcall.elim
    | fresh lead =>
        obtain rfl : c = .query FUNCTION none := hcall
        obtain ⟨raw, hraw, hconfig, hasked, hfun⟩ := holds_told T (.inl rfl) (hsome rfl) hs'
        obtain ⟨hparse, hrecent⟩ := hfun rfl
        have hlead : leads (s'.serving t) = some lead := hs' ▸ hh.1
        rw [hh.2] at hasked
        cases lead with
        | false =>
            refine ⟨.partway false 1 (T.config s.meter), answer_of_value hraw
              ⟨_, _, hparse, rfl, rfl⟩, hupdate _ hs' ⟨hlead, .inl rfl, hasked,
              Agree.of_eq hconfig, fun h => absurd h (by decide), T.config s.meter, ?_, rfl⟩⟩
            rw [hrecent]
            rfl
        | true =>
            exact ⟨.label (T.config s.meter).function false, answer_of_value hraw ⟨_, hparse, rfl⟩,
              hupdate _ hs' ⟨hlead, hasked, congrArg DeviceState.function hconfig⟩⟩
    | label f measured =>
        obtain ⟨hlead, hbefore, hf⟩ := hh
        have hlead' : leads (s'.serving t) = some true := hs' ▸ hlead
        cases measured with
        | false =>
            obtain rfl : c = .query MEASURE none := hcall
            -- the reading of a status: the function stays while it is measured
            obtain ⟨raw, hraw, hconfig, hasked, -⟩ := holds_told T (.inr rfl) (hsome rfl) hs'
            rw [hbefore] at hasked
            exact ⟨.label f true, answer_of_value hraw rfl, hupdate _ hs' ⟨hlead', hasked,
              (congrArg DeviceState.function hconfig).trans hf⟩⟩
        | true =>
            obtain rfl : c = .query FUNCTION none := hcall
            obtain ⟨raw, hraw, hconfig, hasked, hfun⟩ := holds_told T (.inl rfl) (hsome rfl) hs'
            obtain ⟨hparse, hrecent⟩ := hfun rfl
            rw [hbefore] at hasked
            refine ⟨.partway true 1 (T.config s.meter), answer_of_value hraw
              ⟨_, hf ▸ hparse, hf, rfl⟩, hupdate _ hs' ⟨hlead', .inl rfl, hasked,
              Agree.of_eq hconfig, fun h => absurd h (by decide), T.config s.meter, ?_, rfl⟩⟩
            rw [hrecent]
            rfl
    | partway lead k d =>
        obtain rfl : c = .query (next k) none := hcall
        obtain ⟨raw, g, hraw, hg, hholds⟩ := holds_filled T hh (hsome rfl) hs'
        refine ⟨g, answer_of_value hraw ?_, hupdate _ hs' hholds⟩
        obtain ⟨-, rfl | rfl | rfl, -⟩ := hh <;> exact hg
  · cases h with
    | other => exact ⟨.other, rfl, hupdate _ hs' trivial⟩
    | whole d => exact hcall.elim
    | fresh lead => exact ⟨.other, by cases lead <;> cases c <;> rfl, hupdate _ hs' trivial⟩
    | label f measured =>
        exact ⟨.other, by cases measured <;> cases c <;> rfl, hupdate _ hs' trivial⟩
    | partway lead k d =>
        obtain rfl : c = .query (next k) none := hcall
        have hheld : fieldsHeld s t = k := fieldsHeld_partway T hh
        obtain ⟨-, rfl | rfl | rfl, -⟩ := id hh
        · exact ⟨.other, rfl, hupdate _ hs' trivial⟩
        · exact ⟨.other, rfl, hupdate _ hs' trivial⟩
        · -- a failure here would be swallowed as None: it is excluded, or it is silence, and no
          -- function that has a range is silent
          obtain rfl | ⟨-, hnone⟩ := hx
          · exact absurd hheld hok.2
          · exact absurd hnone (not_silent T hh)

/-- A call of the clock, the broadcaster or the database comes out. -/
theorem inv_hub {s s' : Room M V ι} {ph : ι → Phase (snapshots (V := V))} {t : ι} {o : HubOp V}
    {h : Stage} {x : Outcome V} {r : Except Exc o.Res} (hI : Inv T s ph)
    (hph : ph t = .waiting h) (hs : s.hub t o x = some (r, s')) :
    ∃ g, (snapshots (V := V)).answer h (.inr o) r g ∧
      Inv T s' (Function.update ph t (.ready g)) := by
  have hh : Holds T s t h := by
    have := hI t
    rw [hph] at this
    exact this
  have hanswer : (snapshots (V := V)).answer h (.inr o) r h := by
    cases h with
    | fresh lead => cases lead <;> rfl
    | label f measured => cases measured <;> rfl
    | _ => rfl
  -- the clock and the database do nothing to the meter
  have hsame : ∀ u, Follows s s' u ∧ s'.meter = s.meter := by
    intro u
    obtain rfl | ⟨reading, -, rfl⟩ := hub_cases hs <;>
      exact ⟨⟨rfl, rfl, List.prefix_refl _, List.prefix_refl _⟩, rfl⟩
  have hagree : ∀ u, Agree (fieldsHeld s u) (T.config s'.meter) (T.config s.meter) :=
    fun u => Agree.of_eq (congrArg T.config (hsame u).2)
  exact ⟨h, hanswer, hI.update T (hh.frame T (hsame t).1 (hagree t)) (fun u _ => (hsame u).1)
    hagree⟩

/-- A task that is about to begin a request. -/
theorem holds_start (s : Room M V ι) (t : ι) (r : Request) :
    Holds T (s.start T t r) t (begins r) := by
  unfold begins
  cases hlead : leads r with
  | none => trivial
  | some lead =>
      refine ⟨?_, Function.update_self ..⟩
      show leads (Function.update s.serving t r t) = some lead
      rw [Function.update_self]
      exact hlead

/-- **Every step** keeps the invariant. -/
theorem sound : Sound (snapshots (V := V)) (room T timeout float : System _ _ _ ι _)
    (Undisturbed T float) ends (Inv T) where
  start {s s' ph t e g r} hI _ _ _ hs := by
    obtain rfl : s.start T t e = s' := Option.some.inj hs
    refine ⟨begins e, wp_code float e, hI.update T (holds_start T s t e) (fun u hu => ?_)
      fun u => Agree.of_eq rfl⟩
    have hmoments : (s.start T t e).moments u = s.moments u := Function.update_of_ne hu ..
    have hrecent : (s.start T t e).recent u = s.recent u := Function.update_of_ne hu ..
    exact ⟨Function.update_of_ne hu .., Function.update_of_ne hu .., hmoments ▸ List.prefix_refl _,
      hrecent ▸ List.prefix_refl _⟩
  invoke {s ph t o g h} hI hph hinv _ := by
    obtain ⟨rfl, -⟩ := hinv
    have hh : Holds T s t h := by
      have := hI t
      rw [hph] at this
      exact this
    exact hI.update T hh (fun u _ => ⟨rfl, rfl, List.prefix_refl _, List.prefix_refl _⟩)
      fun u => Agree.of_eq rfl
  answer {s s' ph t o h x r} hI hph hinv hok hs := by
    cases o with
    | inl c => exact inv_call T float hI hph hinv hok hs
    | inr o => exact inv_hub T hI hph hs
  env {s s' ph m} hI hok hs := by
    obtain rfl : s.move T m = s' := Option.some.inj hs
    exact fun u => (hI u).frame T
      ⟨rfl, rfl, List.prefix_append _ _, List.prefix_append _ _⟩ (hok.1 u)

/-- **COHERENT SNAPSHOTS**: along every run of any tasks on one meter, if no step changes a
    field that a snapshot in progress has read and no `RANGE?` of one fails, every snapshot
    is the configuration of one moment of its call, and every status names one function. -/
theorem coherent (m : M) {c : Config (Server V) Exc (Answer V) ι (Room M V ι)}
    (h : Reach (room T timeout float) (Undisturbed T float) (initial m) c) : Coherent c := by
  have hstart : Inv T (initial (V := V) (ι := ι) m).shared fun _ => .ready .other :=
    fun t => trivial
  obtain ⟨ph, hI, hA⟩ := (sound T float).reach hstart (fun t => trivial) h
  refine ⟨fun t d hd => ?_, fun t st hst => ?_⟩
  · obtain ⟨g, hg, rfl⟩ := (hA t).outcome (by rw [hd]; rfl)
    have ht := hI t
    rw [hg] at ht
    exact ht.1
  · obtain ⟨g, hg, d, rfl, hstate, hfunction⟩ := (hA t).outcome (by rw [hst]; rfl)
    have ht := hI t
    rw [hg] at ht
    exact ⟨d, ht.2, hstate, hfunction⟩

/-! ## Two runs on the mock -/

instance (s : Room M V ι) (a : Action (room T timeout float : System _ _ _ ι _)) :
    Decidable (RangeAnswered T float s a) :=
  match a with
  | .answer _ (.failed _ _ _) => inferInstanceAs (Decidable (_ ≠ _))
  | .answer _ (.done _) => .isTrue trivial
  | .answer _ (.silent _) => .isTrue trivial
  | .answer _ (.clock _) => .isTrue trivial
  | .answer _ (.summary _) => .isTrue trivial
  | .answer _ (.raised _) => .isTrue trivial
  | .start _ _ => .isTrue trivial
  | .invoke _ => .isTrue trivial
  | .env _ => .isTrue trivial

instance (s : Room M V Bool) (a : Action (room T timeout float : System _ _ _ Bool _))
    (s' : Room M V Bool) : Decidable (Undisturbed T float s a s') :=
  inferInstanceAs (Decidable ((∀ _, Agree _ _ _) ∧ _))

/-- A task that selects resistance. -/
def resistance : Request := .other (Driver.setFunction .RESISTANCE defaultRtdType)

/-- The mock as a meter whose readings are all zero. -/
def mock : Meter Mock.MockTransport := mockMeter fun _ => "0.0".toList

/-- Values as the meter writes them. -/
def text (raw : Str) : Option Str := some raw

/-- A call of the task `t` and its success. -/
def call (t : Bool) : List (Action (room mock 2 text : System _ _ _ Bool _)) :=
  [.invoke t, .answer t (.done false)]

/-- A snapshot with a change of function after its first query. -/
def torn : List (Action (room mock 2 text : System _ _ _ Bool _)) :=
  [.start false .state] ++ call false ++ [.start true resistance] ++ call true
    ++ call false ++ call false ++ call false

/-- A snapshot with a change of rate before its second query, and then a status. -/
def untorn : List (Action (room mock 2 text : System _ _ _ Bool _)) :=
  [.start false .state] ++ call false ++ [.start true (.other (Driver.setRate .SLOW))] ++ call true
    ++ call false ++ call false ++ call false ++ [.start false (.status false 60)] ++ call false
    ++ call false ++ [.invoke false, .answer false (.clock 0)] ++ call false ++ call false
    ++ call false ++ call false

/-- Neither a change at the front panel nor a call that fails. -/
def Untroubled (s : Room M V ι) (a : Action (room T timeout float : System _ _ _ ι _))
    (s' : Room M V ι) : Prop :=
  NoPanel T float s a s' ∧ match a with
    | .answer _ (.failed _ _ _) => False
    | .answer _ (.silent _) => False
    | _ => True

/-- What a task that has read the state returned. -/
def snapshot : Point (Server V) Exc (Answer V) → Option DeviceState
  | .ready (.ret (.state d)) => some d
  | _ => none

theorem eq_of_snapshot {q : Point (Server V) Exc (Answer V)} {d : DeviceState}
    (h : snapshot q = some d) : q = .ready (.ret (.state d)) := by
  match q, h with
  | .ready (.ret (.state _)), rfl => rfl

/-- **A torn snapshot**: a voltage with the range of a resistance. -/
theorem not_coherent :
    ¬ ∀ (V M ι : Type) (_ : DecidableEq ι) (T : Meter M) (timeout : Rat)
      (float : Str → Option V) (m : M) (c : Config (Server V) Exc (Answer V) ι (Room M V ι)),
      Reach (room T timeout float) (Untroubled T float) (initial m) c → Coherent c := by
  intro h
  have hrun : ((run (room mock 2 text) (initial {}) torn).map fun c =>
      (snapshot (c.point false)).map fun d => decide (d ∈ c.shared.moments false))
        = some (some false) := by decide +kernel
  obtain ⟨c, hc, hend⟩ := Option.map_eq_some_iff.mp hrun
  have hreach : Reach (room mock 2 text) (Untroubled mock text) (initial {}) c := by
    refine reach_of_run hc fun a ha s s' => ?_
    simp only [torn, call, List.cons_append, List.nil_append, List.mem_cons, List.not_mem_nil,
      or_false] at ha
    obtain rfl | rfl | rfl | rfl | rfl | rfl | rfl | rfl | rfl | rfl | rfl | rfl := ha <;>
      exact ⟨trivial, trivial⟩
  have hcoherent := h Str Mock.MockTransport Bool inferInstance mock 2 text {} c hreach
  obtain ⟨d, hd, hout⟩ := Option.map_eq_some_iff.mp hend
  exact absurd (hcoherent.state false d (eq_of_snapshot hd)) (of_decide_eq_false hout)

/-- Two coherent snapshots: the fields that change are not read yet. -/
theorem coherent_untorn : ∃ c,
    runWithin (room mock 2 text) (Undisturbed mock text) (initial {}) untorn = some c ∧
      Coherent c := by
  have hrun : (runWithin (room mock 2 text) (Undisturbed mock text) (initial {})
      untorn).isSome = true := by decide +kernel
  obtain ⟨c, hc⟩ := Option.isSome_iff_exists.mp hrun
  exact ⟨c, hc, coherent mock text {} (reach_of_runWithin hc)⟩

end Snapshots
