import Mathlib.Data.List.Forall2
import TagGateway.Device.CarryForward
import TagGateway.Proofs.Device.Compile

set_option autoImplicit false

namespace TagGateway

/-- The value that was sent last, or the one from before if none was. -/
inductive Carried {α : Type} (before : Option α) (sent : List (Option α)) : Option α → Prop where
  | last (earlier later : List (Option α)) {v : α} (split : sent = earlier ++ some v :: later)
    (silent : ∀ x ∈ later, x = none) : Carried before sent (some v)
  | before (silent : ∀ x ∈ sent, x = none) : Carried before sent before

theorem Carried.concat {α : Type} {before value : Option α} {sent : List (Option α)}
    (h : Carried before sent value) (x : Option α) :
    Carried before (sent ++ [x]) (x <|> value) := by
  cases x with
  | some v => exact .last sent [] rfl nofun
  | none =>
    cases h with
    | last earlier later split silent =>
      refine .last earlier (later ++ [none]) (by simp [split]) ?_
      simpa [or_imp, forall_and] using silent
    | before silent => exact .before (by simpa [or_imp, forall_and] using silent)

namespace ReportFields

structure Known (d : DeviceModel) (start : ReportFields) (sent : List ReportFields)
    (seen : ReportFields) : Prop where
  used : ∀ {α : Type} (field : ReportField α), field.inUse d.content d.hasUtcClock = true →
    Carried (field.get start) (sent.map (field.get ·)) (field.get seen)
  unused : ∀ {α : Type} (field : ReportField α), field.inUse d.content d.hasUtcClock = false →
    field.get seen = field.get start

/-- What the fields of a reading become, the last of those sent so far. -/
structure Completed (d : DeviceModel) (start : ReportFields) (sent : List ReportFields)
    (reported result : ReportFields) : Prop where
  used : ∀ {α : Type} (field : ReportField α), field.inUse d.content d.hasUtcClock = true →
    Carried (field.get start) (sent.map (field.get ·)) (field.get result)
  unused : ∀ {α : Type} (field : ReportField α), field.inUse d.content d.hasUtcClock = false →
    field.get result = field.get reported
  present : ∀ {α : Type} (field : ReportField α) (v : α), field.get reported = some v →
    field.get result = some v

variable {d : DeviceModel} {start seen : ReportFields} {sent : List ReportFields}

theorem Known.carry (h : Known d start sent seen) (reported : ReportFields) :
    Known d start (sent ++ [reported])
        (LastSeen.remembered d.content d.hasUtcClock seen reported)
      ∧ Completed d start (sent ++ [reported]) reported
        (LastSeen.completed d.content d.hasUtcClock seen reported) := by
  have hcarried {α : Type} (field : ReportField α)
      (huse : field.inUse d.content d.hasUtcClock = true) :
      Carried (field.get start) ((sent ++ [reported]).map (field.get ·))
        (field.get reported <|> field.get seen) := by
    rw [List.map_append]
    exact (h.used field huse).concat _
  unfold LastSeen.remembered LastSeen.completed
  refine ⟨⟨fun field huse => ?_, fun field huse => ?_⟩,
    ⟨fun field huse => ?_, fun field huse => ?_, fun field v hv => ?_⟩⟩
  · simpa [huse] using hcarried field huse
  · simpa [huse] using h.unused field huse
  · simpa [huse] using hcarried field huse
  · simp [huse]
  · simp [hv]

end ReportFields

namespace LastSeen

variable (vendor subtype : UInt32) (seen : LastSeen) (r : Reading)

theorem reading_carryCustom :
    (carryCustom vendor subtype seen r).2
      = { r with custom := r.custom ++
            if (r.custom.find? (·.isOf vendor subtype)).isSome then []
            else (seen.custom.find? (·.isOf vendor subtype)).toList } := by
  unfold carryCustom
  cases r.custom.find? (·.isOf vendor subtype) with
  | some p => simp
  | none => cases seen.custom.find? (·.isOf vendor subtype) <;> simp

theorem find?_carryCustom :
    (carryCustom vendor subtype seen r).2.custom.find? (·.isOf vendor subtype)
      = (r.custom.find? (·.isOf vendor subtype) <|> seen.custom.find? (·.isOf vendor subtype)) := by
  rw [reading_carryCustom, List.find?_append]
  cases hr : r.custom.find? (·.isOf vendor subtype) with
  | some p => rfl
  | none =>
    cases hs : seen.custom.find? (·.isOf vendor subtype) with
    | some p =>
      have hp : p.isOf vendor subtype = true := by simpa using List.find?_some hs
      simp [hp]
    | none => rfl

/-- What is remembered of the parameter; all else stays. -/
theorem seen_carryCustom :
    (carryCustom vendor subtype seen r).1.fields = seen.fields
      ∧ (carryCustom vendor subtype seen r).1.custom.find? (·.isOf vendor subtype)
        = (r.custom.find? (·.isOf vendor subtype) <|> seen.custom.find? (·.isOf vendor subtype))
      ∧ (carryCustom vendor subtype seen r).1.custom.filter (!·.isOf vendor subtype)
        = seen.custom.filter (!·.isOf vendor subtype) := by
  unfold carryCustom
  cases hr : r.custom.find? (·.isOf vendor subtype) with
  | some p =>
    have hp : p.isOf vendor subtype = true := by simpa using List.find?_some hr
    have hnone : (seen.custom.filter (!·.isOf vendor subtype)).find? (·.isOf vendor subtype)
        = none := by simp [List.find?_eq_none]
    refine ⟨rfl, ?_, ?_⟩
    · simp [List.find?_append, hnone, hp]
    · simp [List.filter_append, hp]
  | none =>
    cases hs : seen.custom.find? (·.isOf vendor subtype) with
    | some p => exact ⟨rfl, hs, rfl⟩
    | none => exact ⟨rfl, hs, rfl⟩

end LastSeen

namespace Impinj

theorem adoptTid_cases (r : Reading) :
    adoptTid r = r
      ∨ r.memory = [] ∧ ∃ words, serializedTid? r.custom = some words
        ∧ adoptTid r = { r with memory := [{ status := 0, opSpec := 0, words }] } := by
  unfold adoptTid
  split
  · next hempty =>
    split
    · next words hwords => exact .inr ⟨List.isEmpty_iff.1 hempty, words, hwords, rfl⟩
    · exact .inl rfl
  · exact .inl rfl

theorem fields_adoptTid (r : Reading) :
    (adoptTid r).fields = r.fields ∧ (adoptTid r).custom = r.custom := by
  obtain hsame | ⟨-, words, -, hadopted⟩ := adoptTid_cases r
  · rw [hsame]
    exact ⟨rfl, rfl⟩
  · rw [hadopted]
    exact ⟨rfl, rfl⟩

theorem serializedTid?_carryCustom (seen : LastSeen) (r : Reading) :
    serializedTid? (LastSeen.carryCustom vendor peakRssi seen r).2.custom
      = serializedTid? r.custom := by
  have hfind : find? (LastSeen.carryCustom vendor peakRssi seen r).2.custom serializedTid
      = find? r.custom serializedTid := by
    rw [LastSeen.reading_carryCustom, find?, List.find?_append]
    split
    · rw [List.find?_nil, Option.or_none]; rfl
    · cases hs : seen.custom.find? (·.isOf vendor peakRssi) with
      | none => exact Option.or_none
      | some p =>
        have hp : p.isOf vendor peakRssi = true := by simpa using List.find?_some hs
        have hother : p.isOf vendor serializedTid = false := by
          simp only [CustomParameter.isOf, Bool.and_eq_true, beq_iff_eq] at hp
          simp [CustomParameter.isOf, hp.2, serializedTid, peakRssi]
        simp [hother, find?]
  unfold serializedTid?
  rw [hfind]

structure PeakKnown (start : List CustomParameter) (sent : List (List CustomParameter))
    (seen : List CustomParameter) : Prop where
  peak : Carried (find? start peakRssi) (sent.map (find? · peakRssi)) (find? seen peakRssi)
  others : seen.filter (!·.isOf vendor peakRssi) = start.filter (!·.isOf vendor peakRssi)

structure PeakCompleted (start : List CustomParameter) (sent : List (List CustomParameter))
    (reported result : List CustomParameter) : Prop where
  peak : Carried (find? start peakRssi) (sent.map (find? · peakRssi)) (find? result peakRssi)
  present : (find? reported peakRssi).isSome → result = reported
  absent : find? reported peakRssi = none → result = reported ++ (find? result peakRssi).toList

theorem PeakKnown.carry {seen : LastSeen} {start : List CustomParameter}
    {sent : List (List CustomParameter)} (h : PeakKnown start sent seen.custom) (r : Reading) :
    PeakKnown start (sent ++ [r.custom]) (LastSeen.carryCustom vendor peakRssi seen r).1.custom
      ∧ PeakCompleted start (sent ++ [r.custom]) r.custom
        (LastSeen.carryCustom vendor peakRssi seen r).2.custom := by
  have hcarried : Carried (find? start peakRssi) ((sent ++ [r.custom]).map (find? · peakRssi))
      (find? r.custom peakRssi <|> find? seen.custom peakRssi) := by
    rw [List.map_append]
    exact h.peak.concat _
  obtain ⟨-, hseen, hothers⟩ := LastSeen.seen_carryCustom vendor peakRssi seen r
  have hseen : find? (LastSeen.carryCustom vendor peakRssi seen r).1.custom peakRssi
      = (find? r.custom peakRssi <|> find? seen.custom peakRssi) := hseen
  have hresult : find? (LastSeen.carryCustom vendor peakRssi seen r).2.custom peakRssi
      = (find? r.custom peakRssi <|> find? seen.custom peakRssi) :=
    LastSeen.find?_carryCustom vendor peakRssi seen r
  have hreading : (LastSeen.carryCustom vendor peakRssi seen r).2.custom
      = r.custom ++ if (find? r.custom peakRssi).isSome then []
          else (find? seen.custom peakRssi).toList :=
    congrArg Reading.custom (LastSeen.reading_carryCustom vendor peakRssi seen r)
  refine ⟨⟨hseen ▸ hcarried, hothers.trans h.others⟩,
    ⟨hresult ▸ hcarried, fun hsome => ?_, fun hnone => ?_⟩⟩
  · rw [hreading, if_pos hsome, List.append_nil]
  · rw [hresult, hreading, hnone]
    rfl

end Impinj

namespace Device

/-- What is known of a reader after its readings. -/
structure Knows (d : Device) (start : LastSeen) (sent : List Reading) (seen : LastSeen) :
    Prop where
  fields : ReportFields.Known d.model start.fields (sent.map (·.fields)) seen.fields
  custom : match d.vendor with
    | .generic => seen.custom = start.custom
    | .impinj => Impinj.PeakKnown start.custom (sent.map (·.custom)) seen.custom

structure Kept (d : Device) (r result : Reading) : Prop where
  shortEpc : result.shortEpc = r.shortEpc
  longEpc : result.longEpc = r.longEpc
  memory : result.memory = r.memory
    ∨ d.vendor = .impinj ∧ r.memory = [] ∧ ∃ words, Impinj.serializedTid? r.custom = some words
      ∧ result.memory = [{ status := 0, opSpec := 0, words }]

structure Completed (d : Device) (start : LastSeen) (sent : List Reading) (r result : Reading) :
    Prop extends d.Kept r result where
  fields : ReportFields.Completed d.model start.fields (sent.map (·.fields)) r.fields
    result.fields
  custom : match d.vendor with
    | .generic => result.custom = r.custom
    | .impinj => Impinj.PeakCompleted start.custom (sent.map (·.custom)) r.custom result.custom

variable {d : Device} {start seen : LastSeen} {sent : List Reading}

theorem knows_start (d : Device) (start : LastSeen) : d.Knows start [] start where
  fields := ⟨fun _ _ => .before nofun, fun _ _ => rfl⟩
  custom := by
    cases d.vendor with
    | generic => rfl
    | impinj => exact ⟨.before nofun, rfl⟩

theorem kept_adoptTid (hv : d.vendor = .impinj) {r carried : Reading}
    (hshort : carried.shortEpc = r.shortEpc) (hlong : carried.longEpc = r.longEpc)
    (hmemory : carried.memory = r.memory)
    (htid : Impinj.serializedTid? carried.custom = Impinj.serializedTid? r.custom) :
    d.Kept r (Impinj.adoptTid carried) := by
  obtain hsame | ⟨hempty, words, hwords, hadopted⟩ := Impinj.adoptTid_cases carried
  · rw [hsame]
    exact ⟨hshort, hlong, .inl hmemory⟩
  · rw [hadopted]
    exact ⟨hshort, hlong, .inr ⟨hv, hmemory ▸ hempty, words, htid ▸ hwords, rfl⟩⟩

theorem Knows.complete (h : d.Knows start sent seen) (r : Reading) :
    d.Knows start (sent ++ [r]) (d.complete true seen r).1
      ∧ d.Completed start (sent ++ [r]) r (d.complete true seen r).2 := by
  obtain ⟨vendor, model⟩ := d
  obtain ⟨hknown, hcompleted⟩ := h.fields.carry r.fields
  have hfields : (sent ++ [r]).map (·.fields) = sent.map (·.fields) ++ [r.fields] := by simp
  have hcustoms : (sent ++ [r]).map (·.custom) = sent.map (·.custom) ++ [r.custom] := by simp
  cases vendor with
  | generic =>
    exact
      ⟨{ fields := hfields ▸ hknown, custom := h.custom },
       { shortEpc := rfl, longEpc := rfl, memory := .inl rfl, fields := hfields ▸ hcompleted,
         custom := rfl }⟩
  | impinj =>
    let carried := seen.carryFields model r
    let peaked := LastSeen.carryCustom Impinj.vendor Impinj.peakRssi carried.1 carried.2
    have hcomplete : Device.complete ⟨.impinj, model⟩ true seen r
        = (peaked.1, Impinj.adoptTid peaked.2) := rfl
    have hcarried : Impinj.PeakKnown start.custom (sent.map (·.custom)) carried.1.custom := h.custom
    obtain ⟨hpeak, hpeaked⟩ := hcarried.carry carried.2
    have hseen := (LastSeen.seen_carryCustom Impinj.vendor Impinj.peakRssi carried.1 carried.2).1
    have hreading :=
      LastSeen.reading_carryCustom Impinj.vendor Impinj.peakRssi carried.1 carried.2
    obtain ⟨hsame, hparameters⟩ := Impinj.fields_adoptTid peaked.2
    have hkept : Kept ⟨.impinj, model⟩ r (Impinj.adoptTid peaked.2) :=
      kept_adoptTid rfl (by rw [hreading]; rfl) (by rw [hreading]; rfl) (by rw [hreading]; rfl)
        (Impinj.serializedTid?_carryCustom carried.1 carried.2)
    rw [hcomplete]
    refine ⟨{ fields := ?_, custom := ?_ }, { hkept with fields := ?_, custom := ?_ }⟩
    · rw [hfields, hseen]
      exact hknown
    · rw [hcustoms]
      exact hpeak
    · rw [hfields, hsame, hreading]
      exact hcompleted
    · rw [hcustoms, hparameters]
      exact hpeaked

/-- The readings of several batches, one batch after the other. -/
def completeBatches (d : Device) (carry : Bool) (seen : LastSeen) :
    List (List Reading) → LastSeen × List (List Reading)
  | [] => (seen, [])
  | batch :: rest =>
    let (seen, done) := d.completeAll carry seen batch
    let (seen, rest) := completeBatches d carry seen rest
    (seen, done :: rest)

theorem completeAll_append (d : Device) (carry : Bool) (seen : LastSeen) (a b : List Reading) :
    d.completeAll carry seen (a ++ b)
      = ((d.completeAll carry (d.completeAll carry seen a).1 b).1,
        (d.completeAll carry seen a).2
          ++ (d.completeAll carry (d.completeAll carry seen a).1 b).2) := by
  induction a generalizing seen with
  | nil => rfl
  | cons r a ih => simp [ih]

theorem completeBatches_flatten (d : Device) (carry : Bool) (seen : LastSeen)
    (batches : List (List Reading)) :
    ((d.completeBatches carry seen batches).1, (d.completeBatches carry seen batches).2.flatten)
      = d.completeAll carry seen batches.flatten := by
  induction batches generalizing seen with
  | nil => rfl
  | cons batch rest ih =>
    rw [List.flatten_cons, completeAll_append, ← ih]
    rfl

theorem length_completeAll (d : Device) (carry : Bool) (seen : LastSeen) (batch : List Reading) :
    (d.completeAll carry seen batch).2.length = batch.length := by
  induction batch generalizing seen with
  | nil => rfl
  | cons r rest ih => simp [ih]

theorem lengths_completeBatches (d : Device) (carry : Bool) (seen : LastSeen)
    (batches : List (List Reading)) :
    (d.completeBatches carry seen batches).2.map List.length = batches.map List.length := by
  induction batches generalizing seen with
  | nil => rfl
  | cons batch rest ih => simp [completeBatches, length_completeAll, ih]

theorem Knows.completeAll (h : d.Knows start sent seen) (more : List Reading) :
    d.Knows start (sent ++ more) (d.completeAll true seen more).1
      ∧ ∀ i r, more[i]? = some r → ∃ result, (d.completeAll true seen more).2[i]? = some result
        ∧ d.Completed start (sent ++ more.take (i + 1)) r result := by
  induction more generalizing sent seen with
  | nil => exact ⟨by simpa using h, fun i r hr => by simp at hr⟩
  | cons r rest ih =>
    obtain ⟨hknows, hcompleted⟩ := h.complete r
    obtain ⟨hlast, hrest⟩ := ih hknows
    refine ⟨by simpa using hlast, fun i r' hr' => ?_⟩
    cases i with
    | zero =>
      obtain rfl : r = r' := by simpa using hr'
      refine ⟨(d.complete true seen r).2, by simp, ?_⟩
      simpa using hcompleted
    | succ i =>
      obtain ⟨result, hresult, hdone⟩ := hrest i r' (by simpa using hr')
      exact ⟨result, by simpa using hresult, by simpa using hdone⟩

theorem complete_bare (d : Device) (seen : LastSeen) (r : Reading) :
    (d.complete false seen r).1 = seen ∧ d.Kept r (d.complete false seen r).2
      ∧ (d.complete false seen r).2.fields = r.fields
      ∧ (d.complete false seen r).2.custom = r.custom := by
  obtain ⟨vendor, model⟩ := d
  cases vendor with
  | generic => exact ⟨rfl, ⟨rfl, rfl, .inl rfl⟩, rfl, rfl⟩
  | impinj =>
    exact ⟨rfl, kept_adoptTid rfl rfl rfl rfl rfl, (Impinj.fields_adoptTid r).1,
      (Impinj.fields_adoptTid r).2⟩

theorem completeAll_bare (d : Device) (seen : LastSeen) (batch : List Reading) :
    (d.completeAll false seen batch).1 = seen
      ∧ List.Forall₂ (fun r result => d.Kept r result ∧ result.fields = r.fields
        ∧ result.custom = r.custom) batch (d.completeAll false seen batch).2 := by
  induction batch with
  | nil => exact ⟨rfl, .nil⟩
  | cons r rest ih =>
    obtain ⟨hseen, hkept⟩ := d.complete_bare seen r
    obtain ⟨hlast, hrest⟩ := ih
    simp only [completeAll, hseen]
    exact ⟨hlast, .cons hkept hrest⟩

/-- However the readings of a reader are cut into batches, a field in use that one leaves out has
the value that was sent last before it, or that was known at the start, and the same goes for the
peak strength that a vendor's readers report; what a reading has, what is not in use and the tag
stay as they are. In the end it is known of each field what was sent last. Where nothing is carried,
each reading keeps its fields and parameters, and nothing is remembered. -/
theorem carried_forward (d : Device) (seen : LastSeen) (batches : List (List Reading)) :
    (∃ last results, d.completeBatches true seen batches = (last, results)
      ∧ results.map List.length = batches.map List.length
      ∧ d.Knows seen batches.flatten last
      ∧ ∀ i r, batches.flatten[i]? = some r → ∃ result, results.flatten[i]? = some result
        ∧ d.Completed seen (batches.flatten.take (i + 1)) r result)
    ∧ (∀ (carry : Bool) (others : List (List Reading)), others.flatten = batches.flatten →
      (d.completeBatches carry seen others).1 = (d.completeBatches carry seen batches).1
        ∧ (d.completeBatches carry seen others).2.flatten
          = (d.completeBatches carry seen batches).2.flatten)
    ∧ (d.completeBatches false seen batches).1 = seen
    ∧ List.Forall₂ (fun r result => d.Kept r result ∧ result.fields = r.fields
      ∧ result.custom = r.custom) batches.flatten
      (d.completeBatches false seen batches).2.flatten := by
  have hcarry := d.completeBatches_flatten true seen batches
  have hbare := d.completeBatches_flatten false seen batches
  refine ⟨⟨_, _, rfl, d.lengths_completeBatches true seen batches, ?_⟩,
    fun carry others hothers => ?_, ?_⟩
  · have hknown := (knows_start d seen).completeAll batches.flatten
    rw [← hcarry] at hknown
    exact hknown
  · have hsame := (d.completeBatches_flatten carry seen others).trans
      (hothers ▸ (d.completeBatches_flatten carry seen batches).symm)
    exact Prod.mk.inj hsame
  · have hkept := d.completeAll_bare seen batches.flatten
    rw [← hbare] at hkept
    exact hkept

/-- The second reading has neither antenna nor peak strength, and comes in a batch of its own. -/
theorem carried_forward_second :
    let peak : CustomParameter :=
      { vendor := Impinj.vendor, subtype := Impinj.peakRssi, data := ⟨[0xe8, 0x90]⟩ }
    let tid : CustomParameter :=
      { vendor := Impinj.vendor, subtype := Impinj.serializedTid, data := ⟨[0, 1, 0xe2, 0x80]⟩ }
    let first : Reading :=
      { shortEpc := some ⟨⟨[1]⟩⟩, fields := { antenna := some 7 }, custom := [peak] }
    let second : Reading := { shortEpc := some ⟨⟨[2]⟩⟩, custom := [tid] }
    let result : Reading :=
      { shortEpc := some ⟨⟨[2]⟩⟩, fields := { antenna := some 7 }, custom := [tid, peak]
        memory := [{ status := 0, opSpec := 0, words := [0xe280] }] }
    ∃ d, ofCapabilities (plain Impinj.vendor) = .ok d
      ∧ (d.completeBatches true {} [[first], [second]]).2 = [[first], [result]]
      ∧ d.Completed {} [first, second] second result := by
  intro peak tid first second result
  have hresults : ((ofCapabilities (plain Impinj.vendor)).map fun d =>
      (d.completeBatches true {} [[first], [second]]).2) = .ok [[first], [result]] := by
    decide +kernel
  cases hd : ofCapabilities (plain Impinj.vendor) with
  | error cause => simp [hd] at hresults
  | ok d =>
    simp only [hd, ok_map, Except.ok.injEq] at hresults
    obtain ⟨⟨last, results, hcomplete, -, -, hcompleted⟩, -⟩ :=
      carried_forward d {} [[first], [second]]
    obtain ⟨found, hfound, hsecond⟩ := hcompleted 1 second rfl
    obtain rfl : results = [[first], [result]] := by rw [← hresults, hcomplete]
    obtain rfl : result = found := Option.some.inj hfound
    exact ⟨d, rfl, hresults, hsecond⟩

end Device

end TagGateway
