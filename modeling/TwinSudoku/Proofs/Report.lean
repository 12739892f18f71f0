import TwinSudoku.Proofs.Json.Records
import TwinSudoku.Proofs.Uuid
import TwinSudoku.Report

/-!
# Reports are read back

A report may be written in many ways: its fields in any order and among others, its identifier in
any of four forms, its duration with more than a second of nanoseconds. Each of these texts is read
as the same report, and the text that is printed is one of them.

* `Duration.Told`, `Report.Told`: the values that give a duration or a report.
* `Report.Tells`: the texts that give a report.
* `Duration.ofJson?_eq_some_iff`, `Report.ofText?_eq_some_iff`: what is read is what is given.
* `Report.print_reads_back`: a report is read back from the text that is printed, from whatever text
  it has been read.
-/

namespace TwinSudoku

/-! ## Durations -/

namespace Duration

/-- The length of a span in nanoseconds. -/
def total (d : Duration) : Nat := d.seconds.toNat * perSecond + d.nanos

/-- The value is a record of the two numbers and of no other fields, and they add up to the span. -/
def Told (v : Json) (d : Duration) : Prop :=
  ∃ seconds nanos, isPair v ∧
    Json.HasFields ["secs", "nanos"] v [some (.ofNat seconds), some (.ofNat nanos)] ∧
    seconds < UInt64.size ∧ nanos < UInt32.size ∧ d.total = seconds * perSecond + nanos

theorem ofParts?_eq_some_iff {seconds nanos : Nat} {d : Duration} :
    ofParts? seconds nanos = some d ↔ d.total = seconds * perSecond + nanos := by
  have hnanos := d.nanos_lt
  have hseconds := d.seconds.toNat_lt
  unfold total
  rw [ofParts?]
  constructor
  · intro h
    split at h
    · obtain rfl := Option.some.inj h
      dsimp only
      rw [UInt64.toNat_ofNatLT, Nat.add_mul, Nat.add_assoc, Nat.mul_comm (nanos / perSecond),
        Nat.div_add_mod]
    · exact absurd h nofun
  · intro h
    have hcarry : d.seconds.toNat = seconds + nanos / perSecond ∧ d.nanos = nanos % perSecond := by
      unfold perSecond at *
      omega
    rw [dif_pos (hcarry.1 ▸ hseconds)]
    obtain ⟨s, n, _⟩ := d
    obtain ⟨hs, hn⟩ := hcarry
    dsimp only at hs hn
    subst hn
    simp only [Option.some_inj, Duration.mk.injEq, and_true]
    exact UInt64.toNat_inj.1 (by rw [UInt64.toNat_ofNatLT, hs])

theorem ofJson?_eq_some_iff {v : Json} {d : Duration} : ofJson? v = some d ↔ Told v d := by
  unfold ofJson?
  by_cases hpair : isPair v
  · simp only [hpair, Bool.not_true, Bool.false_eq_true, if_false, Option.bind_eq_bind,
      Option.bind_eq_some_iff, Json.fields?_eq_some_iff]
    constructor
    · rintro ⟨fields, hfields, h⟩
      split at h
      · simp only [Option.bind_eq_some_iff, Json.natural?_eq_some_iff, ofParts?_eq_some_iff] at h
        obtain ⟨seconds, ⟨rfl, hseconds⟩, nanos, ⟨rfl, hnanos⟩, htotal⟩ := h
        exact ⟨seconds, nanos, hpair, hfields, hseconds, hnanos, htotal⟩
      · exact absurd h nofun
    · rintro ⟨seconds, nanos, -, hfields, hseconds, hnanos, htotal⟩
      refine ⟨_, hfields, ?_⟩
      simp only [Option.bind_eq_some_iff, Json.natural?_eq_some_iff, ofParts?_eq_some_iff]
      exact ⟨seconds, ⟨rfl, hseconds⟩, nanos, ⟨rfl, hnanos⟩, htotal⟩
  · rw [if_pos (by simp [hpair])]
    exact ⟨nofun, fun ⟨_, _, hpair', _⟩ => absurd hpair' hpair⟩

theorem told_toJson (d : Duration) : Told d.toJson d :=
  have hnames : ["secs", "nanos"].Nodup := by decide
  ⟨d.seconds.toNat, d.nanos, rfl, Json.hasFields_record hnames [_, _] rfl, d.seconds.toNat_lt,
    Nat.lt_trans d.nanos_lt (by decide), rfl⟩

theorem typed_toJson (d : Duration) : d.toJson.Typed := by
  refine Json.typed_record ?_
  simp only [List.forall_mem_cons]
  exact ⟨.natural _, .natural _, nofun⟩

end Duration

/-! ## Reports -/

namespace Report

theorem timeOf?_eq_some_iff {v : Json} {t : Int64} :
    timeOf? v = some t ↔ v.integer? = some t.toInt := by
  rw [timeOf?, Option.bind_eq_bind, Option.bind_eq_some_iff]
  constructor
  · rintro ⟨n, hn, h⟩
    split at h
    · next hrange =>
      obtain rfl := Option.some.inj h
      rw [hn, Int64.toInt_ofInt_of_le hrange.1 (Int.lt_of_le_of_lt hrange.2 (by decide))]
    · exact absurd h nofun
  · intro h
    refine ⟨_, h, ?_⟩
    rw [if_pos ⟨t.le_toInt, Int.le_of_lt_add_one t.toInt_lt⟩, Int64.ofInt_toInt]
    rfl

/-- The fields of a report in the order of their names, some of them as they are given. -/
def fields (r : Report) (id elapsed time : Json) : List Json :=
  [id, .ofNat r.seed.toNat, .ofNat r.k.toNat, .bool r.diagonal, .ofNat r.clauses.toNat,
    .ofNat r.attempts.toNat, .ofNat r.queries.toNat, .ofNat r.removed.toNat,
    .ofNat r.restored.toNat, .ofNat r.givens.toNat, elapsed, time]

/-- The value is a record with all the fields of the report. -/
inductive Told (v : Json) (r : Report) : Prop
  | intro {id : String} {elapsed time : Json} (hid : r.id.Spells id.toList)
      (helapsed : Duration.Told elapsed r.elapsed) (htime : time.integer? = some r.time.toInt)
      (hfields : Json.HasFields fieldNames v ((r.fields (.ofString id) elapsed time).map some))

/-- The text is that of a record with all the fields of the report. -/
def Tells (text : String) (r : Report) : Prop := ∃ v, Json.parse? text = some v ∧ Told v r

/-- A value is read as the report that it gives. -/
theorem ofJson?_eq_some_iff {v : Json} {r : Report} : ofJson? v = some r ↔ Told v r := by
  rw [ofJson?, Option.bind_eq_bind, Option.bind_eq_some_iff]
  constructor
  · rintro ⟨fields, hfields, h⟩
    rw [Json.fields?_eq_some_iff] at hfields
    split at h
    · obtain ⟨name, hname, h⟩ := Option.bind_eq_some_iff.1 h
      obtain ⟨id, hid, h⟩ := Option.bind_eq_some_iff.1 h
      obtain ⟨seed, hseed, h⟩ := Option.bind_eq_some_iff.1 h
      obtain ⟨k, hk, h⟩ := Option.bind_eq_some_iff.1 h
      obtain ⟨diagonal, hdiagonal, h⟩ := Option.bind_eq_some_iff.1 h
      obtain ⟨clauses, hclauses, h⟩ := Option.bind_eq_some_iff.1 h
      obtain ⟨attempts, hattempts, h⟩ := Option.bind_eq_some_iff.1 h
      obtain ⟨queries, hqueries, h⟩ := Option.bind_eq_some_iff.1 h
      obtain ⟨removed, hremoved, h⟩ := Option.bind_eq_some_iff.1 h
      obtain ⟨restored, hrestored, h⟩ := Option.bind_eq_some_iff.1 h
      obtain ⟨givens, hgivens, h⟩ := Option.bind_eq_some_iff.1 h
      obtain ⟨elapsed, helapsed, h⟩ := Option.bind_eq_some_iff.1 h
      obtain ⟨time, htime, h⟩ := Option.bind_eq_some_iff.1 h
      obtain rfl := Option.some.inj h
      rw [Json.string?_eq_some_iff.1 hname, Json.word64?_eq_some_iff.1 hseed,
        Json.word64?_eq_some_iff.1 hk, Json.bool?_eq_some_iff.1 hdiagonal,
        Json.word64?_eq_some_iff.1 hclauses, Json.word64?_eq_some_iff.1 hattempts,
        Json.word64?_eq_some_iff.1 hqueries, Json.word64?_eq_some_iff.1 hremoved,
        Json.word64?_eq_some_iff.1 hrestored, Json.word64?_eq_some_iff.1 hgivens] at hfields
      exact .intro (Uuid.ofText?_eq_some_iff.1 hid) (Duration.ofJson?_eq_some_iff.1 helapsed)
        (timeOf?_eq_some_iff.1 htime) hfields
    · exact absurd h nofun
  · rintro ⟨hid, helapsed, htime, hfields⟩
    refine ⟨_, Json.fields?_eq_some_iff.2 hfields, ?_⟩
    have hword (x : UInt64) : Json.word64? (.ofNat x.toNat) = some x :=
      Json.word64?_eq_some_iff.2 rfl
    simp only [Report.fields, List.map_cons, List.map_nil, Option.bind_eq_bind, Option.bind_some,
      Json.string?_eq_some_iff.2 rfl, hword, Json.bool?_eq_some_iff.2 rfl,
      Uuid.ofText?_eq_some_iff.2 hid, Duration.ofJson?_eq_some_iff.2 helapsed,
      timeOf?_eq_some_iff.2 htime]
    rfl

/-- A text is read as the report that it gives. -/
theorem ofText?_eq_some_iff {text : String} {r : Report} :
    ofText? text = some r ↔ Tells text r := by
  rw [ofText?, Option.bind_eq_some_iff]
  simp only [ofJson?_eq_some_iff]
  rfl

/-! ## Printing -/

theorem typed_fields (r : Report) {id elapsed time : Json} (hid : id.Typed)
    (helapsed : elapsed.Typed) (htime : time.Typed) : ∀ v ∈ r.fields id elapsed time, v.Typed := by
  simp only [fields, List.forall_mem_cons]
  exact ⟨hid, .natural _, .natural _, .bool _, .natural _, .natural _, .natural _, .natural _,
    .natural _, .natural _, helapsed, htime, nofun⟩

theorem typed_toJson (r : Report) : r.toJson.Typed :=
  Json.typed_record fun _ hf =>
    r.typed_fields (.text _) r.elapsed.typed_toJson (Json.typed_ofInt _) _
    (List.of_mem_zip hf).2

/-- The value that is printed gives the report. -/
theorem told_toJson (r : Report) : Told r.toJson r := by
  have hid : r.id.Spells (String.ofList r.id.written).toList := by
    rw [String.toList_ofList]
    exact Uuid.ofText?_eq_some_iff.1 r.id.ofText?_written
  exact .intro hid r.elapsed.told_toJson (Json.integer?_ofInt r.time.toInt)
    (Json.hasFields_record (by decide) _ rfl)

theorem tells_print (r : Report) : Tells r.toJson.print r :=
  ⟨r.toJson, Json.parse?_print r.typed_toJson, r.told_toJson⟩

theorem print_eq_ok {r : Report} (htime : r.time ≠ Int64.minValue) : r.print = .ok r.toJson.print :=
  if_neg htime

/-- A report is read from the texts that give it, and one of them is printed. So a report that has
been read from any text is printed as a text from which it is read again, and from there the same
text is printed. -/
theorem print_reads_back :
    (∀ (text : String) (r : Report), ofText? text = some r ↔ Tells text r) ∧
    (∀ r : Report, r.time ≠ Int64.minValue →
      ∃ printed, r.print = .ok printed ∧ ofText? printed = some r) ∧
    ∀ (text : String) (r : Report), Tells text r → r.time ≠ Int64.minValue →
      ∃ printed, r.print = .ok printed ∧ ofText? printed = some r ∧
        ∀ again, ofText? printed = some again → again = r ∧ again.print = .ok printed := by
  have hreads (r : Report) : ofText? r.toJson.print = some r := ofText?_eq_some_iff.2 r.tells_print
  refine ⟨fun _ _ => ofText?_eq_some_iff, fun r htime => ?_, fun text r _ htime => ?_⟩
  · exact ⟨_, print_eq_ok htime, hreads r⟩
  · refine ⟨_, print_eq_ok htime, hreads r, fun again hagain => ?_⟩
    obtain rfl : r = again := Option.some.inj ((hreads r).symm.trans hagain)
    exact ⟨rfl, print_eq_ok htime⟩

/-- A report without the names of its fields, with capitals and a label in the identifier, a
duration in another order and with more than a second of nanoseconds. -/
theorem print_reads_back_carried :
    let text := "[\"URN:uuid:0123ABCD-4567-89ef-0123-abCD456789EF\",9,2,false,0,1,5,3,1," ++
      "18446744073709551615,\x7b\"nanos\":3000000007,\"secs\":4\x7d,-1]"
    let r : Report :=
      { id := ⟨[0, 1, 2, 3, 10, 11, 12, 13, 4, 5, 6, 7, 8, 9, 14, 15,
          0, 1, 2, 3, 10, 11, 12, 13, 4, 5, 6, 7, 8, 9, 14, 15], rfl⟩
        seed := 9, k := 2, diagonal := false, clauses := 0, attempts := 1, queries := 5
        removed := 3, restored := 1, givens := 18446744073709551615
        elapsed := ⟨7, 7, by decide⟩, time := -1 }
    ofText? text = some r ∧ ∃ printed, r.print = .ok printed ∧ ofText? printed = some r := by
  intro text r
  have htext : ofText? text = some r := by decide +kernel
  obtain ⟨printed, hprinted, hread, -⟩ :=
    print_reads_back.2.2 text r ((print_reads_back.1 text r).1 htext) (by decide)
  exact ⟨htext, printed, hprinted, hread⟩

end Report

end TwinSudoku
