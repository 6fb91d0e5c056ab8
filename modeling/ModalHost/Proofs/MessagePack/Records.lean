import ModalHost.Proofs.MessagePack.Scalars

/-! Records and variants as they are written are read back field by field. -/

namespace ModalHost.MessagePack

structure Entry where
  field : Field
  bytes : Bytes
  datum : Datum
  reads : Reads field.read bytes datum
  short : Fits field.name

namespace Entry

def written (e : Entry) : String × Bytes := (e.field.name, e.bytes)

end Entry

theorem ofName_known (before after : List String) (name : String) (absent : name ∉ before) :
    Key.ofName (before ++ name :: after) (Utf8.ofString name) = .known before.length := by
  have found : (before ++ name :: after).findIdx? (Utf8.ofString · == Utf8.ofString name) =
      some before.length := by
    rw [List.findIdx?_eq_some_iff_getElem]
    refine ⟨by simp, by simp, ?_⟩
    intro j below
    rw [List.getElem_append_left below]
    simp only [beq_iff_eq]
    intro same
    exact absent (Utf8.ofString_injective same ▸ List.getElem_mem below)
  simp only [Key.ofName, found]

theorem Reads.key (before after : List String) (name : String) (absent : name ∉ before)
    {length : Length} {field : Bytes}
    (head : Reads (Reader.length length) field (Utf8.ofString name).length) :
    Reads (Key.after (before ++ name :: after) (.text length)) (field ++ Utf8.ofString name)
      (.known before.length) := by
  refine (Reads.payload _ head).give ?_
  rw [ofName_known before after name absent]

theorem Reads.name (before after : List String) (name : String) (absent : name ∉ before)
    (fits : Fits name) :
    Reads (Key.read (before ++ name :: after)) (writeText name) (.known before.length) := by
  obtain ⟨b, field, length, written, mark, head⟩ := reads_writeText name fits
  rw [written]
  refine (Reads.marker b).bind ?_
  rw [mark]
  exact .key before after name absent head

theorem Reads.pair (before after : List Entry) (e : Entry)
    (absent : e.field.name ∉ before.map (·.field.name)) :
    Reads
      (readPair ((before ++ e :: after).map (·.field))
        (before.map (some ·.datum) ++ (e :: after).map fun _ => none))
      (writeText e.field.name ++ e.bytes)
      ((before ++ [e]).map (some ·.datum) ++ after.map fun _ => none) := by
  have key := Reads.name (before.map (·.field.name)) (after.map (·.field.name)) e.field.name absent
    e.short
  have names : ((before ++ e :: after).map (·.field)).map (·.name) =
      before.map (·.field.name) ++ e.field.name :: after.map (·.field.name) := by
    simp [Function.comp_def]
  rw [readPair, names]
  refine key.bind ?_
  have field : ((before ++ e :: after).map (·.field))[before.length]? = some e.field := by
    simp
  have slot : (before.map (some ·.datum) ++ (e :: after).map fun _ => none)[before.length]? =
      some none := by
    simp
  simp only [List.length_map, field, slot]
  refine e.reads.give ?_
  simp

theorem Reads.pairs (before after : List Entry)
    (distinct : ((before ++ after).map (·.field.name)).Nodup) :
    Reads
      (readPairs ((before ++ after).map (·.field)) after.length
        (before.map (some ·.datum) ++ after.map fun _ => none))
      (after.flatMap fun e => writeText e.field.name ++ e.bytes)
      ((before ++ after).map (some ·.datum)) := by
  induction after generalizing before with
  | nil =>
      simp only [List.append_nil, List.map_nil]
      exact pure _
  | cons e after ih =>
      have absent : e.field.name ∉ before.map (·.field.name) := by
        rw [List.map_append, List.nodup_append] at distinct
        intro member
        exact distinct.2.2 _ member _ (by simp) rfl
      have later := ih (before ++ [e]) (by rwa [List.append_assoc])
      rw [List.append_assoc] at later
      rw [List.length_cons, List.flatMap_cons]
      exact (Reads.pair before after e absent).bind later

theorem complete_full (fields : List Field) (data : List Datum)
    (same : fields.length = data.length) : complete? fields (data.map some) = some data := by
  induction fields generalizing data with
  | nil =>
      obtain rfl := List.length_eq_zero_iff.mp same.symm
      rfl
  | cons field fields ih =>
      cases data with
      | nil => cases same
      | cons datum data =>
          have rest := ih data (Nat.succ.inj same)
          simp only [complete?, List.map_cons, List.head?_cons, List.tail_cons, rest]
          rfl

theorem Reads.record (fields : List Field) (entries : List Entry)
    (same : entries.map (·.field) = fields) (few : fields.length < 0x10)
    (distinct : (fields.map (·.name)).Nodup) :
    Reads (readRecord fields) (writeRecord (entries.map (·.written))) (entries.map (·.datum)) := by
  subst same
  rw [List.length_map] at few
  rw [List.map_map] at distinct
  have pairs := Reads.pairs [] entries distinct
  have full : complete? (entries.map (·.field)) (entries.map (some ·.datum)) =
      some (entries.map (·.datum)) := by
    simpa [Function.comp_def] using
      complete_full (entries.map (·.field)) (entries.map (·.datum)) (by simp)
  have written : writeRecord (entries.map (·.written)) =
      [UInt8.ofNat (0x80 + entries.length)] ++
        (entries.flatMap fun e => writeText e.field.name ++ e.bytes) := by
    simp [writeRecord, List.flatMap_map, Entry.written]
  rw [written]
  refine (Reads.marker _).bind ?_
  rw [marker_map _ few]
  simp only [Reader.length, pure_bind]
  rw [readMap, List.map_map]
  refine pairs.give ?_
  simp only [List.nil_append, full]

theorem Reads.readAs {α : Type} (fields : List Field) (entries : List Entry)
    (same : entries.map (·.field) = fields) (few : fields.length < 0x10)
    (distinct : (fields.map (·.name)).Nodup) (build : List Datum → Option α) (x : α)
    (built : build (entries.map (·.datum)) = some x) :
    Reads (readAs fields build) (writeRecord (entries.map (·.written))) x := by
  refine (Reads.record fields entries same few distinct).give ?_
  simp only [built]

theorem Reads.variant (before after : List String) (name : String) (absent : name ∉ before)
    (fits : Fits name) :
    Reads (readVariant (before ++ name :: after)) (writeText name) before.length := by
  obtain ⟨b, field, length, written, mark, head⟩ := reads_writeText name fits
  rw [written]
  refine (Reads.marker b).bind ?_
  rw [mark]
  exact (Reads.key before after name absent head).give rfl

namespace Entry

def text (name s : String) (short : Fits name) (fits : Fits s) : Entry :=
  ⟨.text name, writeText s, .text s, (Reads.text s fits).map _, short⟩

def optionalText (name : String) (s : Option String) (short : Fits name)
    (fits : ∀ t ∈ s, Fits t) : Entry :=
  ⟨.optionalText name, writeOptionalText s, .optionalText s, (Reads.optionalText s fits).map _,
    short⟩

def flag (name : String) (b : Bool) (short : Fits name) : Entry :=
  ⟨.flag name, writeFlag b, .flag b, (Reads.flag b).map _, short⟩

def word (name : String) (n : UInt32) (short : Fits name) : Entry :=
  ⟨.word name, writeWord n.toNat, .word n.toNat, (Reads.word _ n.toNat_lt).map _, short⟩

end Entry

end ModalHost.MessagePack
