import XdmServer.Storage

/-! # What the history holds

    Readings are inserted in any order of their timestamps.  `history_latest` says which of
    them `history` returns, for any filters and any limit; `aggregate_agrees` that `aggregate`
    is the summary of what `history` returns. -/

namespace History

open PyText Driver Sql
open Storage (Matches Row)

/-! ## Summaries in any order -/

section Order

variable {K : Type} [LinearOrder K]

theorem min?_perm {xs ys : List K} (h : xs.Perm ys) : xs.min? = ys.min? := by
  cases hmin : ys.min? with
  | none =>
      rw [List.min?_eq_none_iff.mp hmin] at h
      rw [h.eq_nil]
      rfl
  | some x =>
      obtain ⟨hx, hle⟩ := List.min?_eq_some_iff.mp hmin
      exact List.min?_eq_some_iff.mpr ⟨h.mem_iff.mpr hx, fun y hy => hle y (h.mem_iff.mp hy)⟩

theorem max?_perm {xs ys : List K} (h : xs.Perm ys) : xs.max? = ys.max? := by
  cases hmax : ys.max? with
  | none =>
      rw [List.max?_eq_none_iff.mp hmax] at h
      rw [h.eq_nil]
      rfl
  | some x =>
      obtain ⟨hx, hle⟩ := List.max?_eq_some_iff.mp hmax
      exact List.max?_eq_some_iff.mpr ⟨h.mem_iff.mpr hx, fun y hy => hle y (h.mem_iff.mp hy)⟩

/-- The least of an ascending list is its first. -/
theorem min?_of_ascending {xs : List K} (h : xs.Pairwise (· ≤ ·)) : xs.min? = xs.head? :=
  List.min?_eq_head? (h.imp fun hab => min_eq_left hab)

/-- The greatest of an ascending list is its last. -/
theorem max?_of_ascending {xs : List K} (h : xs.Pairwise (· ≤ ·)) : xs.max? = xs.getLast? := by
  rw [max?_perm (List.reverse_perm xs).symm, ← List.head?_reverse]
  exact List.max?_eq_head? ((List.pairwise_reverse.mpr h).imp fun hba => max_eq_left hba)

end Order

theorem summarise_perm {xs ys : List (Reading Rat)} (h : xs.Perm ys) :
    Database.summarise xs = Database.summarise ys := by
  have hvalues := h.map Reading.value
  have htimestamps := h.map Reading.timestamp
  simp only [Database.summarise, Database.mean, h.length_eq, hvalues.sum_eq, hvalues.length_eq,
    min?_perm hvalues, max?_perm hvalues, min?_perm htimestamps, max?_perm htimestamps]

/-! ## The history -/

section Connected

variable {d : Storage.Database} (hd : d.connected = true) (engine : Engine Row)
  (since until_ : Option Rat) (function : Option Str)
include hd

/-- **The rows refine the list of readings**: an insertion adds its reading to the list, and
    the aggregate is that of the list. -/
theorem refines_readings : (∀ reading, ∃ d', d.insertReading reading = .ok d' ∧
      d'.readings = Database.insertReading d.readings reading) ∧
    d.aggregate since until_ function
      = .ok (Database.aggregate d.readings since until_ function) := by
  refine ⟨fun reading => ?_, Storage.Database.aggregate_eq hd since until_ function⟩
  obtain ⟨d', hd', -, hreadings⟩ := Storage.Database.insertReading_eq hd reading
  exact ⟨d', hd', hreadings⟩

/-- The history of a database is the latest of the readings in it that match. -/
theorem latest_of_connected {limit : Int} (hlimit : -2 ^ 63 ≤ limit ∧ limit < 2 ^ 63) :
    ∃ readings, d.history engine since until_ function limit = .ok readings ∧
      Latest Reading.timestamp limit
        (d.readings.filter fun reading => Matches since until_ function reading) readings := by
  refine ⟨_, Storage.Database.history_eq hd engine since until_ function hlimit, ?_⟩
  have hfilter : (d.readings.filter fun reading => Matches since until_ function reading)
      = (d.table.filter fun row => Matches since until_ function row.reading).map Row.reading := by
    rw [Storage.Database.readings, List.filter_map]
    rfl
  rw [limit_map, hfilter]
  refine latest_limit ((engine.perm ..).map Row.reading) (List.pairwise_map.mpr ?_) limit
  refine (engine.sorted ..).imp ?_
  intro a b hab
  exact Value.rank_real_le.mp hab

/-- A limit within which all rows are takes all that match, or overflows. -/
theorem perm_of_connected {limit : Int} (hlimit : (d.readings.length : Int) ≤ limit)
    {readings : List (Reading Rat)}
    (h : d.history engine since until_ function limit = .ok readings) :
    readings.Pairwise (fun a b => a.timestamp ≤ b.timestamp) ∧
      readings.Perm (d.readings.filter fun reading => Matches since until_ function reading) := by
  have hnonneg : 0 ≤ limit := le_trans (Int.natCast_nonneg _) hlimit
  by_cases hfits : limit < 2 ^ 63
  · have hbounds : -2 ^ 63 ≤ limit ∧ limit < 2 ^ 63 := ⟨by omega, hfits⟩
    obtain ⟨found, hfound, hlatest⟩ :=
      latest_of_connected hd engine since until_ function hbounds
    obtain rfl := Except.ok.inj (hfound.symm.trans h)
    have hlength := List.length_filter_le
      (fun reading => decide (Matches since until_ function reading)) d.readings
    exact ⟨hlatest.ascending, hlatest.perm (by omega)⟩
  · have hoverflow : (Value.integer limit).fits = false := by
      simp [Value.fits]
      omega
    rw [Storage.Database.history_overflow hd engine since until_ function hoverflow] at h
    cases h

end Connected

/-- **THE HISTORY IS THE LATEST OF WHAT MATCHES**, for any insertions, any filters and any
    limit, whatever the engine does with equal timestamps. -/
theorem history_latest (engine : Engine Row) (inserted : List (Reading Rat))
    (since until_ : Option Rat) (function : Option Str) (limit : Int)
    (hlimit : -2 ^ 63 ≤ limit ∧ limit < 2 ^ 63) : ∃ d readings,
      inserted.foldlM Storage.Database.insertReading Storage.Database.new.connect = .ok d ∧
      d.history engine since until_ function limit = .ok readings ∧
      Latest Reading.timestamp limit
        (inserted.filter fun reading => Matches since until_ function reading) readings := by
  obtain ⟨d, hd, hconnected, hreadings⟩ :=
    Storage.Database.insertReadings_eq (Storage.Database.connected_connect .new) inserted
  obtain ⟨readings, hhistory, hlatest⟩ :=
    latest_of_connected hconnected engine since until_ function hlimit
  rw [hreadings] at hlatest
  exact ⟨d, readings, hd, hhistory, hlatest⟩

/-- Two readings of one moment, and one between two later insertions. -/
def volts : List (Reading Rat) :=
  [⟨3, "VOLT".toList, 5, "V".toList⟩, ⟨1, "VOLT".toList, 6, "V".toList⟩,
    ⟨3, "VOLT".toList, 7, "V".toList⟩, ⟨2, "RES".toList, 8, "Ω".toList⟩,
    ⟨2, "VOLT".toList, 9, "V".toList⟩]

/-- Three readings of the voltage in a table with others. -/
theorem history_latest_volts : ∃ d readings,
    volts.foldlM Storage.Database.insertReading Storage.Database.new.connect = .ok d ∧
    d.history .stable (some 1) none (some "VOLT".toList) 3 = .ok readings ∧
    Latest Reading.timestamp 3 (volts.filter fun reading =>
      Matches (some 1) none (some "VOLT".toList) reading) readings :=
  history_latest .stable volts (some 1) none (some "VOLT".toList) 3 (by decide)

example : ((volts.foldlM Storage.Database.insertReading Storage.Database.new.connect).bind fun d =>
    d.history .stable (some 1) none (some "VOLT".toList) 3).toOption.map (·.map Reading.value)
      = some [9, 7, 5] := by
  decide +kernel

/-! ## The aggregate -/

/-- The aggregate is the summary of readings in ascending order of their timestamps. -/
structure Summarises (aggregate : Aggregate Rat) (readings : List (Reading Rat)) : Prop where
  count : aggregate.count = readings.length
  mean : aggregate.mean = if readings = [] then none
    else some ((readings.map Reading.value).sum / readings.length)
  min : aggregate.min = (readings.map Reading.value).min?
  max : aggregate.max = (readings.map Reading.value).max?
  firstTs : aggregate.firstTs = readings.head?.map Reading.timestamp
  lastTs : aggregate.lastTs = readings.getLast?.map Reading.timestamp

/-- Every field but the count is `None` exactly for no readings. -/
theorem Summarises.none_iff {aggregate : Aggregate Rat} {readings : List (Reading Rat)}
    (h : Summarises aggregate readings) :
    (aggregate.mean = none ↔ readings = []) ∧ (aggregate.min = none ↔ readings = []) ∧
    (aggregate.max = none ↔ readings = []) ∧ (aggregate.firstTs = none ↔ readings = []) ∧
    (aggregate.lastTs = none ↔ readings = []) := by
  refine ⟨?_, ?_, ?_, ?_, ?_⟩
  · rw [h.mean]
    by_cases hreadings : readings = []
    · rw [if_pos hreadings]
      exact iff_of_true rfl hreadings
    · rw [if_neg hreadings]
      exact iff_of_false (by simp) hreadings
  · rw [h.min, List.min?_eq_none_iff, List.map_eq_nil_iff]
  · rw [h.max, List.max?_eq_none_iff, List.map_eq_nil_iff]
  · rw [h.firstTs, Option.map_eq_none_iff, List.head?_eq_none_iff]
  · rw [h.lastTs, Option.map_eq_none_iff, List.getLast?_eq_none_iff]

/-- Over readings in the order of time the first and the last are those of the summary. -/
theorem summarise_ascending {readings : List (Reading Rat)}
    (h : readings.Pairwise fun a b => a.timestamp ≤ b.timestamp) :
    Summarises (Database.summarise readings) readings := by
  have hascending : (readings.map Reading.timestamp).Pairwise (· ≤ ·) := List.pairwise_map.mpr h
  by_cases hreadings : readings = []
  · subst hreadings
    exact ⟨rfl, rfl, rfl, rfl, rfl, rfl⟩
  · have hlength : readings.length ≠ 0 := by simpa using hreadings
    have hsummary : Database.summarise readings = ⟨readings.length,
        some (Database.mean (readings.map Reading.value)), (readings.map Reading.value).min?,
        (readings.map Reading.value).max?, (readings.map Reading.timestamp).min?,
        (readings.map Reading.timestamp).max?⟩ := if_neg hlength
    rw [hsummary]
    refine ⟨rfl, ?_, rfl, rfl, ?_, ?_⟩
    · rw [if_neg hreadings, Database.mean, List.length_map]
    · rw [min?_of_ascending hascending, List.head?_map]
    · rw [max?_of_ascending hascending, List.getLast?_map]

/-- **THE AGGREGATE AGREES WITH THE HISTORY**, for any insertions and filters, and a limit
    within which all rows are. -/
theorem aggregate_agrees (engine : Engine Row) (inserted : List (Reading Rat))
    (since until_ : Option Rat) (function : Option Str) (limit : Int)
    (hlimit : (inserted.length : Int) ≤ limit) : ∃ d aggregate,
      inserted.foldlM Storage.Database.insertReading Storage.Database.new.connect = .ok d ∧
      d.aggregate since until_ function = .ok aggregate ∧
      (limit < 2 ^ 63 → ∃ readings, d.history engine since until_ function limit = .ok readings) ∧
      ∀ readings, d.history engine since until_ function limit = .ok readings →
        Summarises aggregate readings ∧
        (aggregate.mean = none ↔ readings = []) ∧ (aggregate.min = none ↔ readings = []) ∧
        (aggregate.max = none ↔ readings = []) ∧ (aggregate.firstTs = none ↔ readings = []) ∧
        (aggregate.lastTs = none ↔ readings = []) := by
  obtain ⟨d, hd, hconnected, hreadings⟩ :=
    Storage.Database.insertReadings_eq (Storage.Database.connected_connect .new) inserted
  have hlength : (d.readings.length : Int) ≤ limit := by
    rw [hreadings]
    exact hlimit
  refine ⟨d, _, hd, Storage.Database.aggregate_eq hconnected since until_ function, ?_, ?_⟩
  · intro hfits
    have hbounds : -2 ^ 63 ≤ limit ∧ limit < 2 ^ 63 := ⟨by omega, hfits⟩
    obtain ⟨readings, hhistory, -⟩ :=
      latest_of_connected hconnected engine since until_ function hbounds
    exact ⟨readings, hhistory⟩
  · intro readings hhistory
    obtain ⟨hascending, hperm⟩ :=
      perm_of_connected hconnected engine since until_ function hlength hhistory
    rw [Storage.select_eq, ← summarise_perm hperm]
    have hsummary := summarise_ascending hascending
    exact ⟨hsummary, hsummary.none_iff⟩

/-- The same table, up to a time. -/
theorem aggregate_agrees_volts : ∃ d aggregate,
    volts.foldlM Storage.Database.insertReading Storage.Database.new.connect = .ok d ∧
    d.aggregate none (some 2) none = .ok aggregate ∧
    ((5 : Int) < 2 ^ 63 → ∃ readings, d.history .stable none (some 2) none 5 = .ok readings) ∧
    ∀ readings, d.history .stable none (some 2) none 5 = .ok readings →
      Summarises aggregate readings ∧
      (aggregate.mean = none ↔ readings = []) ∧ (aggregate.min = none ↔ readings = []) ∧
      (aggregate.max = none ↔ readings = []) ∧ (aggregate.firstTs = none ↔ readings = []) ∧
      (aggregate.lastTs = none ↔ readings = []) :=
  aggregate_agrees .stable volts none (some 2) none 5 (by decide)

end History
