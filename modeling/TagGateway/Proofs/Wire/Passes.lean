import TagGateway.Proofs.Json.Reread
import TagGateway.Proofs.Keys
import TagGateway.Wire.Record

/-!
What comes of a value that is written to a text and read again. Texts and integers come back as they
were, a double as some double or as none, and lists, tables and records with what comes back of
their parts.
-/

set_option autoImplicit false

namespace TagGateway

namespace Json

mutual

theorem sound_mono {depth most : Nat} (h : depth ≤ most) :
    ∀ {j : Json}, j.sound depth → j.sound most
  | .null, _ | .bool _, _ | .int _, _ | .float _, _ | .str _, _ => rfl
  | .arr items, hj => by
    simp only [sound, Bool.and_eq_true, decide_eq_true_eq] at hj ⊢
    exact ⟨by omega, soundItems_mono (by omega) hj.2⟩
  | .obj members, hj => by
    simp only [sound, Bool.and_eq_true, decide_eq_true_eq] at hj ⊢
    exact ⟨by omega, soundMembers_mono (by omega) hj.2⟩

theorem soundItems_mono {depth most : Nat} (h : depth ≤ most) :
    ∀ {items : List Json}, soundItems depth items → soundItems most items
  | [], _ => rfl
  | item :: rest, hitems => by
    simp only [soundItems, Bool.and_eq_true] at hitems ⊢
    exact ⟨sound_mono h hitems.1, soundItems_mono h hitems.2⟩

theorem soundMembers_mono {depth most : Nat} (h : depth ≤ most) :
    ∀ {members : List (String × Json)}, soundMembers depth members → soundMembers most members
  | [], _ => rfl
  | (_, value) :: rest, hmembers => by
    simp only [soundMembers, Bool.and_eq_true] at hmembers ⊢
    exact ⟨sound_mono h hmembers.1, soundMembers_mono h hmembers.2⟩

end

theorem soundItems_eq (depth : Nat) (items : List Json) :
    soundItems depth items = items.all (sound depth) := by
  induction items with
  | nil => rfl
  | cons item rest ih => simp [ih]

theorem soundMembers_eq (depth : Nat) (members : List (String × Json)) :
    soundMembers depth members = members.all (sound depth ·.2) := by
  induction members with
  | nil => rfl
  | cons member rest ih => simp [ih]

end Json

/-- Whether one value is read where the other was written, however the text came to its reader, and
the text nests no deeper than this. -/
structure Wire.Passes {α : Type} [Wire α] (depth : Nat) (a b : α) : Prop where
  sound : (write a).reread.sound depth
  read : ∀ origin, read origin (write a).reread = some b

namespace Wire

theorem Passes.mono {α : Type} [Wire α] {depth most : Nat} {a b : α} (h : Passes depth a b)
    (hle : depth ≤ most) : Passes most a b where
  sound := Json.sound_mono hle h.sound
  read := h.read

theorem passes_float (x : Option Float) : ∃ y, Passes 0 x y := by
  cases x with
  | none => exact ⟨none, rfl, fun _ => rfl⟩
  | some x =>
    cases hx : x.isFinite with
    | false =>
      refine ⟨none, ?_, fun origin => ?_⟩
      · simp [write, hx]
      · simp [write, read, hx]
    | true =>
      obtain ⟨y, hy⟩ := Json.Numeral.value_ofFloat hx
      refine ⟨some y, ?_, fun origin => ?_⟩
      · simp [write, hx, hy]
      · simp [write, read, hx, hy]

section Parts

variable {α : Type} [Wire α] {depth : Nat} (back : α → α)

theorem mapM_read {items : List α} (h : ∀ a ∈ items, Passes depth a (back a)) (origin : Origin) :
    (items.map fun a => (write a).reread).mapM (read origin) = some (items.map back) := by
  induction items with
  | nil => rfl
  | cons a rest ih =>
    obtain ⟨ha, hrest⟩ := List.forall_mem_cons.1 h
    simp [List.mapM_cons, ha.read, ih hrest]

theorem passes_list {items : List α} (h : ∀ a ∈ items, Passes depth a (back a)) :
    Passes (depth + 1) items (items.map back) := by
  have hwrite : (write items).reread = .arr (items.map fun a => (write a).reread) := by
    simp [write, Json.rereadItems_eq, Function.comp_def]
  refine { sound := ?_, read := fun origin => ?_ }
  · rw [hwrite]
    simpa [Json.soundItems_eq] using fun a ha => (h a ha).sound
  · rw [hwrite]
    exact mapM_read back h origin

theorem foldlM_read {pairs : List (String × α)}
    (h : ∀ pair ∈ pairs, Passes depth pair.2 (back pair.2)) (origin : Origin)
    (sofar : Std.TreeMap String α) :
    (pairs.map fun pair => (pair.1, (write pair.2).reread)).foldlM
        (fun m member => (read origin member.2).map (m.insert member.1 ·)) sofar
      = some (pairs.foldl (fun m pair => m.insert pair.1 (back pair.2)) sofar) := by
  induction pairs generalizing sofar with
  | nil => rfl
  | cons pair rest ih =>
    obtain ⟨hpair, hrest⟩ := List.forall_mem_cons.1 h
    simp [List.foldlM_cons, hpair.read, ih hrest]

theorem passes_table {table : Std.TreeMap String α}
    (h : ∀ pair ∈ table.toList, Passes depth pair.2 (back pair.2)) :
    ∃ table', Passes (depth + 1) table table'
      ∧ ∀ key : String, table'[key]? = table[key]?.map back := by
  have hwrite : (write table).reread
      = .obj (table.toList.map fun pair => (pair.1, (write pair.2).reread)) := by
    simp [write, Json.rereadMembers_eq, Function.comp_def]
  refine ⟨table.toList.foldl (fun m pair => m.insert pair.1 (back pair.2)) ∅,
    { sound := ?_, read := fun origin => ?_ }, fun key => ?_⟩
  · rw [hwrite]
    simpa [Json.soundMembers_eq] using fun key a ha => (h (key, a) ha).sound
  · rw [hwrite]
    exact foldlM_read back h origin ∅
  · rw [getElem?_foldl_insert, find?_reverse_toList]
    cases table[key]? <;> simp

end Parts

end Wire

namespace Fields

open Wire (Passes field)

variable {α β : Type} {depth most : Nat} {origin : Origin}
  {members taken later : List (String × Json)}

structure Gives (depth : Nat) (origin : Origin) (members : List (String × Json)) (fields : Fields α)
    (taken : List (String × Json)) (a : α) : Prop where
  sound : Json.soundMembers depth (Json.rereadMembers taken)
  reads : (members.map (·.1)).Nodup → taken ⊆ members →
    fields origin (.named (Json.rereadMembers members))
      = some (a, .named (Json.rereadMembers members))

theorem Gives.done (a : α) : Gives 0 origin members (pure a) [] a where
  sound := rfl
  reads _ _ := rfl

theorem Gives.mono {fields : Fields α} {a : α} (h : Gives depth origin members fields taken a)
    (hle : depth ≤ most) : Gives most origin members fields taken a where
  sound := Json.soundMembers_mono hle h.sound
  reads := h.reads

theorem bind_apply (fields : Fields α) (next : α → Fields β) (origin : Origin) (layout : Layout) :
    (fields >>= next) origin layout
      = (fields origin layout).bind fun (a, layout) => next a origin layout := rfl

theorem Gives.bind {fields : Fields α} {next : α → Fields β} {a : α} {b : β}
    (h : Gives depth origin members fields taken a)
    (hnext : Gives most origin members (next a) later b) :
    Gives (max depth most) origin members (fields >>= next) (taken ++ later) b := by
  refine { sound := ?_, reads := fun distinct hsub => ?_ }
  · have hfirst := Json.soundMembers_mono (Nat.le_max_left depth most) h.sound
    have hlater := Json.soundMembers_mono (Nat.le_max_right depth most) hnext.sound
    simp only [Json.soundMembers_eq, Json.rereadMembers_eq] at hfirst hlater ⊢
    rw [List.map_append, List.all_append, hfirst, hlater]
    rfl
  · obtain ⟨hfirst, hlater⟩ := List.append_subset.1 hsub
    rw [bind_apply, h.reads distinct hfirst]
    exact hnext.reads distinct hlater

theorem filter_rereadMembers {name : String} {json : Json} (distinct : (members.map (·.1)).Nodup)
    (h : (name, json) ∈ members) :
    (Json.rereadMembers members).filter (·.1 == name) = [(name, json.reread)] := by
  induction members with
  | nil => simp at h
  | cons member rest ih =>
    obtain ⟨hfresh, hrest⟩ := List.nodup_cons.1 distinct
    obtain rfl | hmem := List.mem_cons.1 h
    · have hnone : (Json.rereadMembers rest).filter (·.1 == name) = [] := by
        simp only [Json.rereadMembers_eq, List.filter_eq_nil_iff, List.forall_mem_map, beq_iff_eq]
        exact fun other hother hname => hfresh (List.mem_map.2 ⟨other, hother, hname⟩)
      simp [hnone]
    · have hne : member.1 ≠ name := fun hname => hfresh (List.mem_map.2 ⟨_, hmem, hname.symm⟩)
      simp [hne, ih hrest hmem]

theorem next_of_mem {name : String} {json : Json} (distinct : (members.map (·.1)).Nodup)
    (h : (name, json) ∈ members) :
    next name origin (.named (Json.rereadMembers members))
      = some (some json.reread, .named (Json.rereadMembers members)) := by
  simp [next, filter_rereadMembers distinct h]

section Field

variable [Wire α] {name : String} {a b : α} {c : β}

theorem gives_present {fields : Fields α} {absent : Fields α}
    (hfields : fields = next name >>= fun
      | some json => value json
      | none => absent) (h : Passes depth a b) :
    Gives depth origin members fields [field name a] b where
  sound := by simp [h.sound]
  reads distinct hsub := by
    have hmem : (name, Wire.write a) ∈ members := hsub List.mem_cons_self
    rw [hfields, bind_apply, next_of_mem distinct hmem]
    simp [value, h.read]

theorem Gives.required (h : Passes depth a b) {next : α → Fields β}
    (hnext : Gives most origin members (next b) later c) :
    Gives (max depth most) origin members (Fields.required name >>= next)
      (field name a :: later) c :=
  bind (gives_present rfl h) hnext

theorem Gives.orElse (h : Passes depth a b) {default : α} {next : α → Fields β}
    (hnext : Gives most origin members (next b) later c) :
    Gives (max depth most) origin members (Fields.orElse name default >>= next)
      (field name a :: later) c :=
  bind (gives_present rfl h) hnext

theorem Gives.nullable {a b : Option α} (h : Passes depth a b) {next : Option α → Fields β}
    (hnext : Gives most origin members (next b) later c) :
    Gives (max depth most) origin members (Fields.nullable name >>= next)
      (field name a :: later) c :=
  bind (gives_present rfl h) hnext

end Field

section Record

variable {fields : Fields α} {a : α}

theorem Gives.sound_obj (h : Gives depth origin members fields members a) :
    (Json.obj members).reread.sound (depth + 1) := by
  simpa using h.sound

theorem Gives.run (h : Gives depth origin members fields members a)
    (distinct : (members.map (·.1)).Nodup) :
    fields.run origin (Json.obj members).reread = some a := by
  simp [Fields.run, h.reads distinct (List.Subset.refl members)]

end Record

end Fields

namespace Wire

open Fields (Gives)

variable {α : Type} [Wire α] {depth : Nat} {members : List (String × Json)} {fields : Fields α}
  {a b : α}

theorem Passes.record (reads : ∀ origin, (Wire.read origin : Json → Option α) = fields.run origin)
    (writes : write a = .obj members) (distinct : (members.map (·.1)).Nodup)
    (gives : ∀ origin, Gives depth origin members fields members b) : Passes (depth + 1) a b where
  sound := writes ▸ (gives .text).sound_obj
  read origin := by rw [reads, writes, (gives origin).run distinct]

section Tagged

variable {key tag : String}

theorem reread_tagged :
    (Tagged.write key tag members).reread
      = .obj ((key, .str tag) :: Json.rereadMembers members) := by
  simp [Tagged.write]

theorem sound_tagged {most : Nat} (sound : (Json.obj members).reread.sound most) :
    (Tagged.write key tag members).reread.sound most := by
  rw [reread_tagged]
  simpa using sound

/-- The tag comes off again, provided that the whole is not too deep to be read before its kind is
known. -/
theorem of?_write (sound : (Json.obj members).reread.sound Json.maxDepth)
    (fresh : key ∉ members.map (·.1)) :
    Tagged.of? key (Tagged.write key tag members).reread
      = some { tag, fields := (Json.obj members).reread } := by
  have hothers : ∀ member ∈ Json.rereadMembers members, member.1 ≠ key := by
    simp only [Json.rereadMembers_eq, List.forall_mem_map]
    exact fun member hmember hname => fresh (List.mem_map.2 ⟨member, hmember, hname⟩)
  have hnone : (Json.rereadMembers members).filter (·.1 == key) = [] := by
    simpa using hothers
  have hall : (Json.rereadMembers members).filter (·.1 != key) = Json.rereadMembers members := by
    simpa using hothers
  rw [reread_tagged]
  simpa [Tagged.of?, hnone, hall, Nat.pos_iff_ne_zero] using sound

theorem Passes.tagged {fieldsOf? : String → Option (Fields α)}
    (reads : ∀ origin json, Wire.read origin json = (do
      let tagged ← Tagged.of? key json
      let fields ← fieldsOf? tagged.tag
      fields.run .message tagged.fields))
    (writes : write a = Tagged.write key tag members) (kind : fieldsOf? tag = some fields)
    (distinct : (key :: members.map (·.1)).Nodup)
    (gives : Gives depth .message members fields members b) (shallow : depth < Json.maxDepth) :
    Passes (depth + 1) a b := by
  obtain ⟨fresh, hmembers⟩ := List.nodup_cons.1 distinct
  refine { sound := writes ▸ sound_tagged gives.sound_obj, read := fun origin => ?_ }
  rw [reads, writes, of?_write (Json.sound_mono shallow gives.sound_obj) fresh]
  simpa [kind] using gives.run hmembers

end Tagged

end Wire

end TagGateway
