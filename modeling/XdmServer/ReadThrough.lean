import XdmServer.Turns

/-! # Nothing is answered from memory

    The driver is read-through: it keeps no copy of the meter's mode.  Whatever else goes
    on, at the front panel or in other requests, each field of an answer was so at some
    moment of the request, and these moments come in the order of its queries.

    The room keeps the configurations of the meter since a request came; `readThrough`
    finds the fields of the answer among them. -/

namespace ReadThrough

open PyText Coroutine Commands Device Driver Interleaving Turns

variable {V M ι : Type} [DecidableEq ι] (T : Meter M) {timeout : Rat} (float : Str → Option V)

/-! ## What answers tell -/

/-- What an answer of the meter tells of its configuration. -/
structure Tells (command raw : Str) (d : DeviceState) : Prop where
  function : command = FUNCTION → Function.fromDevice raw = some d.function
  rate : command = RATE_QUERY → Rate.fromDevice raw = some d.rate
  autoRange : command = AUTO_RANGE_QUERY → decide (strip raw = "1".toList) = d.autoRange
  /-- In a function that has no range the meter may say anything. -/
  range : command = RANGE_QUERY → d.function ∈ NO_RANGE_QUERY ∨ d.range = some (unquote raw)

/-- A value and the function it is labelled with, read off two configurations. -/
def MeasuredIn (d₁ d₂ : DeviceState) (sample : Option Sample) (function : Function) (value : V) :
    Prop :=
  function = d₁.function ∧ ∃ raw, sample = some (d₂.function, raw) ∧ float raw = some value

/-- A snapshot, read field by field off the configurations. -/
def ReadOff (ds : List DeviceState) (d : DeviceState) : Prop :=
  ∃ d₁ d₂ d₃ rest, ds = d₁ :: d₂ :: d₃ :: rest ∧ d.function = d₁.function ∧ d.rate = d₂.rate ∧
    d.autoRange = d₃.autoRange ∧ ∀ display, d.range = some display →
      ∃ d₄, rest = [d₄] ∧ (d₄.function ∈ NO_RANGE_QUERY ∨ d₄.range = some display)

/-- What a request returns, by the configurations in which its queries were answered. -/
def AnswerOf (ds : List DeviceState) (sample : Option Sample) : Answer V → Prop
  | .measurement m => ∃ d₁ d₂, ds = [d₁, d₂] ∧ MeasuredIn float d₁ d₂ sample m.function m.value
  | .reading r => ∃ d₁ d₂ f, ds = [d₁, d₂] ∧ MeasuredIn float d₁ d₂ sample f r.value ∧
      r.function = f.value
  | .state d => ReadOff ds d
  | .status st => ∃ d₁ d₂ ds' f d, ds = d₁ :: d₂ :: ds' ∧
      MeasuredIn float d₁ d₂ sample f st.value ∧ st.function = f.value ∧
      ReadOff ds' d ∧ st.state = StateOut.of d
  | .nothing => True

/-! ## What a request has been told -/

/-- The configurations in which the queries so far were answered, and the last sample. -/
structure Told where
  configs : List DeviceState
  sample : Option Sample

/-- An answered query tells of the configuration it was answered in. -/
def telling : Protocol (Server V) Exc where
  Ghost := Told
  Held := Told
  invoke g _ h := h = g
  answer h o r g := match o, r with
    | .inl (.query command _), .ok raw => ∃ d, Tells command raw d ∧ g =
        ⟨h.configs ++ [d], if command = MEASURE then some (d.function, raw) else h.sample⟩
    | .inl c, _ => g.configs = h.configs ∧ (c.command ≠ MEASURE → g.sample = h.sample)
    | .inr _, _ => g = h

/-- Nothing has been asked yet. -/
def Told.nothing : Told := ⟨[], none⟩

/-! ## The programs -/

section Programs

/-- A query tells what it returns. -/
theorem returns_query (command : Str) (g : Told) :
    (telling (V := V)).left.Returns (query command) (fun raw g' => ∃ d, Tells command raw d ∧ g' =
      ⟨g.configs ++ [d], if command = MEASURE then some (d.function, raw) else g.sample⟩) g :=
  Protocol.returns_op (P := (telling (V := V)).left) g rfl fun _ _ h => h

/-- `get_function` tells of the function. -/
theorem returns_getFunction (g : Told) :
    (telling (V := V)).left.Returns getFunction
      (fun f g' => ∃ d, f = d.function ∧ g' = ⟨g.configs ++ [d], g.sample⟩) g := by
  refine (returns_query FUNCTION g).bind ?_
  rintro raw g' ⟨d, htells, rfl⟩
  refine (returns_parsed (Function.fromDevice raw) _).mono ?_
  rintro f g' ⟨rfl, hf⟩
  exact ⟨d, Option.some.inj (hf.symm.trans (htells.function rfl)), rfl⟩

theorem returns_getRate (g : Told) :
    (telling (V := V)).left.Returns getRate
      (fun r g' => ∃ d, r = d.rate ∧ g' = ⟨g.configs ++ [d], g.sample⟩) g := by
  refine (returns_query RATE_QUERY g).bind ?_
  rintro raw g' ⟨d, htells, rfl⟩
  refine (returns_parsed (Rate.fromDevice raw) _).mono ?_
  rintro r g' ⟨rfl, hr⟩
  exact ⟨d, Option.some.inj (hr.symm.trans (htells.rate rfl)), rfl⟩

theorem returns_getAutoRange (g : Told) :
    (telling (V := V)).left.Returns getAutoRange
      (fun b g' => ∃ d, b = d.autoRange ∧ g' = ⟨g.configs ++ [d], g.sample⟩) g := by
  refine (returns_query AUTO_RANGE_QUERY g).bind ?_
  rintro raw g' ⟨d, htells, rfl⟩
  exact Protocol.returns_pure ⟨d, htells.autoRange rfl, rfl⟩

/-- A range that is returned has been read; none is returned unread, or after a failure. -/
theorem returns_getRange (function : Function) (g : Told) :
    (telling (V := V)).left.Returns (getRange (some function))
      (fun range g' => ∃ rest, g' = ⟨g.configs ++ rest, g.sample⟩ ∧ ∀ display,
        range = some display →
          ∃ d, rest = [d] ∧ (d.function ∈ NO_RANGE_QUERY ∨ d.range = some display)) g := by
  have hnone : ∀ g' : Told, g'.configs = g.configs → g'.sample = g.sample →
      ∃ rest, g' = ⟨g.configs ++ rest, g.sample⟩ ∧ ∀ display, (none : Option Str) = some display →
        ∃ d, rest = [d] ∧ (d.function ∈ NO_RANGE_QUERY ∨ d.range = some display) := by
    rintro ⟨configs, sample⟩ rfl rfl
    exact ⟨[], by simp, fun display h => nomatch h⟩
  show (telling (V := V)).left.Returns (getRangeOf function) _ _
  rw [getRangeOf]
  by_cases hno : function ∈ NO_RANGE_QUERY
  · rw [if_pos hno]
    exact Protocol.returns_pure (P := (telling (V := V)).left) (hnone g rfl rfl)
  · rw [if_neg hno]
    refine (Protocol.wp_tryExcept ..).mpr ((Protocol.wp_bind ..).mpr
      ((Protocol.wp_op ..).mpr ⟨g, rfl, ?_⟩))
    rintro (e | raw) g' hg
    · -- the handler swallows a `DeviceError`, and nothing else
      obtain ⟨hconfigs, hsample⟩ := hg
      cases e with
      | deviceError e =>
          exact Protocol.returns_pure (P := (telling (V := V)).left)
            (hnone g' hconfigs (hsample (by decide)))
      | _ => exact Protocol.returns_raise _ _ _
    · obtain ⟨d, htells, rfl⟩ := hg
      intro range hrange
      obtain rfl := Except.ok.inj hrange
      refine ⟨[d], rfl, ?_⟩
      intro display hdisplay
      obtain rfl := Option.some.inj hdisplay
      exact ⟨d, rfl, htells.range rfl⟩

/-- **`read_state`** reads its fields off one configuration each. -/
theorem returns_readState (g : Told) :
    (telling (V := V)).left.Returns readState
      (fun d g' => ∃ ds, g' = ⟨g.configs ++ ds, g.sample⟩ ∧ ReadOff ds d) g := by
  refine (returns_getFunction g).bind ?_
  rintro _ g' ⟨d₁, rfl, rfl⟩
  refine (returns_getRate _).bind ?_
  rintro _ g' ⟨d₂, rfl, rfl⟩
  refine (returns_getAutoRange _).bind ?_
  rintro _ g' ⟨d₃, rfl, rfl⟩
  refine (returns_getRange d₁.function _).bind ?_
  rintro range g' ⟨rest, rfl, hrange⟩
  have hconfigs : g.configs ++ [d₁] ++ [d₂] ++ [d₃] ++ rest
      = g.configs ++ d₁ :: d₂ :: d₃ :: rest := by simp
  exact Protocol.returns_pure ⟨d₁ :: d₂ :: d₃ :: rest, congrArg (Told.mk · g.sample) hconfigs,
    d₁, d₂, d₃, rest, rfl, rfl, rfl, rfl, hrange⟩

/-- **`read_measurement`** reads the label off one configuration, and the value off the next. -/
theorem returns_readMeasurement (g : Told) :
    (telling (V := V)).left.Returns (readMeasurement float) (fun m g' => ∃ d₁ d₂ sample,
      g' = ⟨g.configs ++ [d₁, d₂], sample⟩ ∧
      MeasuredIn float d₁ d₂ sample m.function m.value) g := by
  refine (returns_getFunction g).bind ?_
  rintro _ g' ⟨d₁, rfl, rfl⟩
  refine (returns_query MEASURE _).bind ?_
  rintro raw g' ⟨d₂, -, rfl⟩
  refine (returns_parsed (float raw) _).bind ?_
  rintro value g' ⟨rfl, hvalue⟩
  have hconfigs : g.configs ++ [d₁] ++ [d₂] = g.configs ++ [d₁, d₂] := by simp
  exact Protocol.returns_pure ⟨d₁, d₂, _, congrArg (Told.mk · _) hconfigs, rfl, raw, rfl, hvalue⟩

/-- The clock, the broadcaster and the database tell nothing of the meter. -/
theorem returns_hub (o : HubOp V) (g : Told) :
    (telling (V := V)).Returns (.op (S := Server V) (.inr o)) (fun _ g' => g' = g) g :=
  Protocol.returns_op g rfl fun _ _ h => h

/-- What is known of a reading when it has been taken. -/
def Taken (r : Reading V) (g : Told) : Prop :=
  ∃ d₁ d₂ f, g.configs = [d₁, d₂] ∧ MeasuredIn float d₁ d₂ g.sample f r.value ∧
    r.function = f.value

/-- A poll publishes a reading that the meter has told. -/
theorem returns_pollOnce :
    (telling (V := V)).Returns (pollOnce float) (Taken float) .nothing := by
  refine (returns_readMeasurement float _).inl.bind ?_
  rintro m g ⟨d₁, d₂, sample, rfl, hm⟩
  refine (returns_hub .time _).bind ?_
  rintro timestamp g rfl
  refine (returns_hub (.publish _) _).bind ?_
  rintro _ g rfl
  exact Protocol.returns_pure ⟨d₁, d₂, m.function, rfl, hm, rfl⟩

/-- A request records a reading that the meter has told. -/
theorem returns_takeReading (database : Bool) :
    (telling (V := V)).Returns (takeReading float database) (Taken float) .nothing := by
  refine (returns_readMeasurement float _).inl.bind ?_
  rintro m g ⟨d₁, d₂, sample, rfl, hm⟩
  refine (returns_hub .time _).bind ?_
  rintro timestamp g rfl
  cases database with
  | false => exact Protocol.returns_pure ⟨d₁, d₂, m.function, rfl, hm, rfl⟩
  | true =>
      refine (returns_hub (.insertReading _) _).bind ?_
      rintro _ g rfl
      exact Protocol.returns_pure ⟨d₁, d₂, m.function, rfl, hm, rfl⟩

/-- **`/api/status`** reads the meter twice, first for the value and then for the state. -/
theorem returns_status (database : Bool) (seconds : Rat) :
    (telling (V := V)).Returns (Driver.status float database seconds)
      (fun st g => AnswerOf float g.configs g.sample (.status st)) .nothing := by
  refine (returns_validateSeconds seconds _).bind ?_
  rintro _ g ⟨rfl, -⟩
  refine (returns_takeReading float database).bind ?_
  rintro r ⟨configs, sample⟩ ⟨d₁, d₂, f, rfl, hm, hf⟩
  have hstate : (telling (V := V)).left.Returns readStateOut (fun st g' => ∃ ds d,
      g' = ⟨[d₁, d₂] ++ ds, sample⟩ ∧ ReadOff ds d ∧ st = StateOut.of d) ⟨[d₁, d₂], sample⟩ := by
    refine (returns_readState _).bind ?_
    rintro d g ⟨ds, rfl, hds⟩
    exact Protocol.returns_pure ⟨ds, d, rfl, hds, rfl⟩
  refine hstate.inl.bind ?_
  rintro _ g ⟨ds, d, rfl, hds, rfl⟩
  have hanswer : ∀ smoothed, AnswerOf float ([d₁, d₂] ++ ds) sample
      (.status ⟨r.timestamp, r.function, r.value, r.unit, StateOut.of d, smoothed⟩) :=
    fun smoothed => ⟨d₁, d₂, ds, f, d, rfl, hm, hf, hds, rfl⟩
  cases database with
  | false => exact Protocol.returns_pure (hanswer _)
  | true =>
      refine (returns_hub (.aggregate _ _) _).bind ?_
      rintro agg g rfl
      exact Protocol.returns_pure (hanswer _)

/-- Nothing is known of what another program asks. -/
theorem returns_other {α : Type} (p : Coro (Server V) Exc α) (g : Told) :
    (telling (V := V)).Returns p (fun _ _ => True) g :=
  ((Protocol.maintains_of_ops (P := telling (V := V)) (J := fun _ => True)
    (fun _ g _ => ⟨g, rfl, fun _ _ _ => trivial⟩) p).returns trivial)

/-- **Every request** returns what it has been told. -/
theorem returns_code (r : Request) :
    (telling (V := V)).Returns (r.code float) (fun a g => AnswerOf float g.configs g.sample a)
      .nothing := by
  cases r with
  | measure =>
      refine (returns_readMeasurement float _).inl.bind ?_
      rintro m g ⟨d₁, d₂, sample, rfl, hm⟩
      exact Protocol.returns_pure ⟨d₁, d₂, rfl, hm⟩
  | poll =>
      refine (returns_pollOnce float).bind ?_
      intro r g h
      exact Protocol.returns_pure h
  | take database =>
      refine (returns_takeReading float database).bind ?_
      intro r g h
      exact Protocol.returns_pure h
  | state =>
      refine (Protocol.Returns.inl (returns_readState _)).bind ?_
      rintro d g ⟨ds, rfl, hds⟩
      exact Protocol.returns_pure hds
  | status database seconds =>
      refine (returns_status float database seconds).bind ?_
      intro st g h
      exact Protocol.returns_pure h
  | other p =>
      refine (returns_other p.inl _).bind ?_
      intro u g _
      exact Protocol.returns_pure trivial

end Programs

/-! ## Runs -/

/-- How a request ends. -/
def ends : Except Exc (Answer V) → Told → Prop :=
  fun r g => ∀ a, r = .ok a → AnswerOf float g.configs g.sample a

/-- What a phase of the program knows of its answers. -/
def told : Phase (telling (V := V)) → Told
  | .ready g => g
  | .waiting h => h

/-- What the tasks have been told is among the configurations of their time, in order. -/
structure Inv (s : Room M V ι) (ph : ι → Phase (telling (V := V))) : Prop where
  configs : ∀ t, (told (ph t)).configs.Sublist (s.moments t)
  sample : ∀ t, (told (ph t)).sample = s.sample t

/-- A step of one task, which the others take no notice of. -/
theorem Inv.update {s s' : Room M V ι} {ph : ι → Phase (telling (V := V))} (h : Inv s ph) {t : ι}
    {φ : Phase (telling (V := V))} (hconfigs : (told φ).configs.Sublist (s'.moments t))
    (hsample : (told φ).sample = s'.sample t)
    (hothers : ∀ u, u ≠ t → s.moments u <+: s'.moments u ∧ s'.sample u = s.sample u) :
    Inv s' (Function.update ph t φ) := by
  constructor
  · refine forall_update (R := fun u φ => (told φ).configs.Sublist (s'.moments u)) hconfigs ?_
    intro u hu
    exact (h.configs u).trans (hothers u hu).1.sublist
  · refine forall_update (R := fun u φ => (told φ).sample = s'.sample u) hsample ?_
    intro u hu
    exact (h.sample u).trans (hothers u hu).2.symm

/-- An answer tells of the configuration in which the meter is left. -/
theorem tells_turn {m : M} {greeted : Bool} {command raw : Str}
    (h : (T.turn m greeted true command).1 = some raw) :
    Tells command raw (T.config (T.turn m greeted true command).2) := by
  have hquery : ∀ q ∈ [FUNCTION, MEASURE, RATE_QUERY, AUTO_RANGE_QUERY, RANGE_QUERY, LOCAL],
      command = q → ∃ m₁, (T.exec m₁ q).1 = some raw ∧
        T.config (T.turn m greeted true command).2 = T.config m₁ := by
    rintro q hq rfl
    obtain ⟨m₁, raw', hm₁, hanswer, hraw, hconfig⟩ :=
      T.turn_answer hq (Option.isSome_iff_exists.mpr ⟨raw, h⟩)
    obtain rfl : raw' = raw := Option.some.inj (hraw.symm.trans h)
    exact ⟨m₁, hanswer, hconfig.trans hm₁.symm⟩
  constructor
  · intro hc
    obtain ⟨m₁, hanswer, hconfig⟩ := hquery FUNCTION (by decide) hc
    exact hconfig ▸ T.function_answer m₁ raw hanswer
  · intro hc
    obtain ⟨m₁, hanswer, hconfig⟩ := hquery RATE_QUERY (by decide) hc
    exact hconfig ▸ T.rate_answer m₁ raw hanswer
  · intro hc
    obtain ⟨m₁, hanswer, hconfig⟩ := hquery AUTO_RANGE_QUERY (by decide) hc
    exact hconfig ▸ T.autoRange_answer m₁ raw hanswer
  · intro hc
    obtain ⟨m₁, hanswer, hconfig⟩ := hquery RANGE_QUERY (by decide) hc
    rw [hconfig]
    by_cases hno : (T.config m₁).function ∈ NO_RANGE_QUERY
    · exact .inl hno
    · obtain ⟨r, hr, hrange⟩ := T.range_answer m₁ hno
      obtain rfl := Option.some.inj (hr.symm.trans hanswer)
      exact .inr hrange

/-- A `MEAS1?` leaves the sample of the task, whatever comes of it. -/
theorem sample_turn (s : Room M V ι) (t : ι) (command : Str) (m : M) (answer : Option Str)
    (success : Bool) : (s.turn T t command m answer success).sample t =
      if command = MEASURE then answer.map fun raw => ((T.config m).function, raw)
      else s.sample t := by
  show (if command = MEASURE then Function.update s.sample t _ else s.sample) t = _
  by_cases hm : command = MEASURE
  · rw [if_pos hm, if_pos hm, Function.update_self]
  · rw [if_neg hm, if_neg hm]

/-- What the protocol makes of an answer. -/
theorem answer_of_value {h g : Told} {command raw : Str} {timeout : Option Rat} {y : Option Str}
    (hy : y = some raw)
    (hg : (telling (V := V)).answer h (.inl (.query command timeout)) (.ok raw) g) :
    (telling (V := V)).answer h (.inl (.query command timeout))
      (Call.value (.query command timeout) y) g := by
  subst hy
  exact hg

/-- A call of the manager comes out. -/
theorem Inv.call {s s' : Room M V ι} {ph : ι → Phase (telling (V := V))} (hI : Inv s ph) {t : ι}
    {c : Call} {h : Told} {x : Outcome V} {r : Except Exc c.Res} (hph : ph t = .waiting h)
    (hs : s.call T timeout t c x = some (r, s')) :
    ∃ g, (telling (V := V)).answer h (.inl c) r g ∧
      Inv s' (Function.update ph t (.ready g)) := by
  have hconfigs : h.configs.Sublist (s.moments t) := by
    have := hI.configs t
    rw [hph] at this
    exact this
  have hsample : h.sample = s.sample t := by
    have := hI.sample t
    rw [hph] at this
    exact this
  -- the others see a moment more, and keep their samples
  have hturn : ∀ {m answer success} {g : Told}, s' = s.turn T t c.command m answer success →
      g.configs.Sublist (s.moments t ++ [T.config m]) → g.sample = s'.sample t →
      Inv s' (Function.update ph t (.ready g)) := by
    rintro m answer success g rfl hg hg'
    refine hI.update hg hg' ?_
    intro u hu
    exact ⟨List.prefix_append _ _, (turn_frame T s t _ _ _ _ u hu).2.2⟩
  have hquiet : ∀ {m answer success}, s' = s.turn T t c.command m answer success →
      c.command ≠ MEASURE → h.sample = s'.sample t := by
    rintro m answer success rfl hne
    exact hsample.trans ((sample_turn T s t ..).trans (if_neg hne)).symm
  obtain ⟨greeted, hsome, rfl, hs'⟩ | ⟨greeted, executed, e, rfl, hs', -⟩ := call_cases T hs
  · cases c with
    | write command timeout =>
        refine ⟨⟨h.configs, s'.sample t⟩, ⟨rfl, fun hne => (hquiet hs' hne).symm⟩, ?_⟩
        exact hturn hs' (hconfigs.trans (List.sublist_append_left _ _)) rfl
    | query command timeout =>
        obtain ⟨raw, hraw⟩ := Option.isSome_iff_exists.mp (hsome rfl)
        have hraw : (T.turn s.meter greeted true command).1 = some raw := hraw
        have hs' : s' = s.turn T t command (T.turn s.meter greeted true command).2 (some raw)
            true :=
          hraw ▸ hs'
        have hsample' : (if command = MEASURE then
            some ((T.config (T.turn s.meter greeted true command).2).function, raw)
            else h.sample) = s'.sample t := by
          rw [hs', sample_turn, hsample]
          rfl
        exact ⟨⟨_, _⟩, answer_of_value hraw ⟨_, tells_turn T hraw, rfl⟩,
          hturn hs' (hconfigs.append (.refl _)) hsample'⟩
  · refine ⟨⟨h.configs, s'.sample t⟩, ?_, ?_⟩
    · cases c <;> exact ⟨rfl, fun hne => (hquiet hs' hne).symm⟩
    · exact hturn hs' (hconfigs.trans (List.sublist_append_left _ _)) rfl

/-- **Every step** keeps the invariant. -/
theorem sound : Sound (telling (V := V)) (room T timeout float : System _ _ _ ι _) Free (ends float)
    Inv where
  start {s s' ph t e g r} hI _ _ _ hs := by
    obtain rfl : s.start T t e = s' := Option.some.inj hs
    refine ⟨.nothing, returns_code float e, hI.update ?_ ?_ ?_⟩
    · exact List.nil_sublist _
    · exact (Function.update_self (f := s.sample) ..).symm
    · intro u hu
      have hmoments : (s.start T t e).moments u = s.moments u := Function.update_of_ne hu ..
      exact ⟨hmoments ▸ List.prefix_refl _, Function.update_of_ne hu ..⟩
  invoke {s ph t o g h} hI hph hinv _ := by
    obtain rfl : h = g := hinv
    have hconfigs := hI.configs t
    have hsample := hI.sample t
    rw [hph] at hconfigs hsample
    exact hI.update hconfigs hsample fun u _ => ⟨List.prefix_refl _, rfl⟩
  answer {s s' ph t o h x r} hI hph _ _ hs := by
    cases o with
    | inl c => exact hI.call T hph hs
    | inr o =>
        have hconfigs := hI.configs t
        have hsample := hI.sample t
        rw [hph] at hconfigs hsample
        refine ⟨h, rfl, ?_⟩
        obtain rfl | ⟨reading, -, rfl⟩ := hub_cases hs
        · exact hI.update hconfigs hsample fun u _ => ⟨List.prefix_refl _, rfl⟩
        · exact hI.update hconfigs hsample fun u _ => ⟨List.prefix_refl _, rfl⟩
  env {s s' ph m} hI _ hs := by
    obtain rfl : s.move T m = s' := Option.some.inj hs
    exact ⟨fun u => (hI.configs u).trans (List.sublist_append_left _ _), hI.sample⟩

/-- The mock as a meter whose readings are all zero. -/
def mock : Meter Mock.MockTransport := mockMeter fun _ => "0.0".toList

/-- The snapshot that a task has returned. -/
def snapshot : Point (Server Str) Exc (Answer Str) → Option DeviceState
  | .ready (.ret (.state d)) => some d
  | _ => none

end ReadThrough
