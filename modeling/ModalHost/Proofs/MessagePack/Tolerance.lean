import Mathlib.Data.List.Forall2
import ModalHost.Proofs.MessagePack.Forms
import ModalHost.Proofs.MessagePack.RoundTrip

/-! A record is read from every form it may be written in, and refused where a field is repeated or
missing. -/

namespace ModalHost

namespace MessagePack

/-- A field reads every form of its shape, and refuses what is at fault. -/
structure Shape.Describes (shape : Shape) (field : Field) : Prop where
  name : field.name = shape.name
  missing : field.missing = shape.missing
  reads (datum : Datum) (bytes : Bytes) : shape.Form datum bytes → Reads field.read bytes datum
  refuses (bytes : Bytes) : shape.Fault bytes → Refuses field.read bytes

structure Described (shapes : List Shape) (fields : List Field) : Prop where
  each : List.Forall₂ Shape.Describes shapes fields
  distinct : (shapes.map (·.name)).Nodup

/-- The slots after the fields among the pairs have been put in their places. -/
def fill (slots : Slots) : List Pair → Slots
  | [] => slots
  | none :: pairs => fill slots pairs
  | some (i, datum) :: pairs => fill (slots.set i (some datum)) pairs

theorem places_field (i : Nat) (datum : Datum) (pairs : List Pair) :
    places (some (i, datum) :: pairs) = i :: places pairs := rfl

theorem fill_other (i : Nat) (pairs : List Pair) (slots : Slots) (absent : i ∉ places pairs) :
    (fill slots pairs)[i]? = slots[i]? := by
  induction pairs generalizing slots with
  | nil => rfl
  | cons pair pairs ih =>
      match pair with
      | none => exact ih slots absent
      | some (j, datum) =>
          rw [places_field, List.mem_cons, not_or] at absent
          rw [fill, ih _ absent.2, List.getElem?_set_ne (Ne.symm absent.1)]

theorem fill_own (i : Nat) (datum : Datum) (pairs : List Pair) (slots : Slots)
    (inside : i < slots.length) (once : (places pairs).Nodup)
    (member : some (i, datum) ∈ pairs) : (fill slots pairs)[i]? = some (some datum) := by
  induction pairs generalizing slots with
  | nil => exact (List.not_mem_nil member).elim
  | cons pair pairs ih =>
      match pair with
      | none => exact ih slots inside once (by simpa using member)
      | some (j, other) =>
          rw [places_field, List.nodup_cons] at once
          rw [fill]
          rcases List.mem_cons.mp member with here | later
          · obtain ⟨rfl, rfl⟩ := Prod.mk.inj (Option.some.inj here)
            rw [fill_other i pairs _ once.1, List.getElem?_set_self inside]
          · exact ih _ (by rwa [List.length_set]) once.2 later

theorem complete_of_each (fields : List Field) (slots : Slots) (data : List Datum)
    (size : data.length = fields.length)
    (each : ∀ (i : Nat) (field : Field), fields[i]? = some field →
      (slots[i]?.join).or field.missing = data[i]?) : complete? fields slots = some data := by
  induction fields generalizing slots data with
  | nil => rw [List.length_eq_zero_iff.mp size, complete?]
  | cons field fields ih =>
      cases data with
      | nil => cases size
      | cons datum data =>
          have first := each 0 field rfl
          have rest := ih slots.tail data (Nat.succ.inj size) fun i other found => by
            rw [List.getElem?_tail]
            exact each (i + 1) other found
          rw [← List.head?_eq_getElem?, List.getElem?_cons_zero] at first
          simp only [complete?, first, rest]
          rfl

theorem incomplete_of_lacking (fields : List Field) (slots : Slots) (i : Nat) (field : Field)
    (found : fields[i]? = some field) (needed : field.missing = none)
    (empty : slots[i]?.join = none) : complete? fields slots = none := by
  induction fields generalizing slots i with
  | nil => cases found
  | cons head fields ih =>
      cases i with
      | zero =>
          cases found
          rw [← List.head?_eq_getElem?] at empty
          simp only [complete?, empty, needed]
          rfl
      | succ i =>
          have rest := ih slots.tail i found (by rwa [List.getElem?_tail])
          simp only [complete?, rest]
          cases (slots.head?.join).or head.missing <;> rfl

theorem readPairs_add (fields : List Field) (first more : Nat) (slots : Slots) :
    readPairs fields (first + more) slots =
      readPairs fields first slots >>= readPairs fields more := by
  induction first generalizing slots with
  | zero => rw [Nat.zero_add, readPairs, pure_bind]
  | succ first ih =>
      rw [Nat.add_right_comm, readPairs, readPairs, bind_assoc]
      exact bind_congr ih

namespace Described

variable {shapes : List Shape} {fields : List Field} (described : Described shapes fields)

include described

theorem names : fields.map (·.name) = shapes.map (·.name) := by
  have each := described.each
  clear described
  induction each with
  | nil => rfl
  | cons one more ih => rw [List.map_cons, List.map_cons, ih, one.name]

theorem size : fields.length = shapes.length := described.each.length_eq.symm

theorem field_of_shape (i : Nat) (shape : Shape) (found : shapes[i]? = some shape) :
    ∃ field, fields[i]? = some field ∧ shape.Describes field := by
  have each := described.each
  clear described
  induction each generalizing i with
  | nil => cases found
  | cons one more ih =>
      cases i with
      | zero =>
          cases found
          exact ⟨_, rfl, one⟩
      | succ i => exact ih i found

theorem shape_of_field (i : Nat) (field : Field) (found : fields[i]? = some field) :
    ∃ shape, shapes[i]? = some shape ∧ shape.Describes field := by
  obtain ⟨inside, -⟩ := List.getElem?_eq_some_iff.mp found
  rw [described.size] at inside
  obtain ⟨other, here, describes⟩ := described.field_of_shape i _ (List.getElem?_eq_getElem inside)
  cases found.symm.trans here
  exact ⟨_, List.getElem?_eq_getElem inside, describes⟩

theorem reads_key {place : Option Nat} {key : Bytes}
    (named : IsKey (shapes.map (·.name)) place key) :
    Reads (Key.read (fields.map (·.name))) key (Key.ofPlace place) := by
  rw [described.names]
  exact named.reads described.distinct

theorem reads_field {i : Nat} {shape : Shape} (found : shapes[i]? = some shape) {datum : Datum}
    {key value : Bytes} (named : IsKey (shapes.map (·.name)) (some i) key)
    (form : shape.Form datum value) {slots : Slots} (free : slots[i]? = some none) :
    Reads (readPair fields slots) (key ++ value) (slots.set i (some datum)) := by
  obtain ⟨field, there, describes⟩ := described.field_of_shape i shape found
  refine (described.reads_key named).bind ?_
  simp only [Key.ofPlace, there, free]
  exact (describes.reads datum value form).give rfl

theorem reads_unknown {key value : Bytes} (named : IsKey (shapes.map (·.name)) none key)
    (form : Values unknownDepth 1 value) (slots : Slots) :
    Reads (readPair fields slots) (key ++ value) slots :=
  (described.reads_key named).bind (form.reads_one.give rfl)

theorem refuses_filled {i : Nat} {key : Bytes} (named : IsKey (shapes.map (·.name)) (some i) key)
    {slots : Slots} (filled : slots[i]? ≠ some none) : Refuses (readPair fields slots) key := by
  refine Refuses.next (described.reads_key named) ?_
  simp only [Key.ofPlace]
  split
  · rename_i empty
    exact absurd empty filled
  · rfl

theorem refuses_value {i : Nat} {shape : Shape} (found : shapes[i]? = some shape)
    {key value : Bytes} (named : IsKey (shapes.map (·.name)) (some i) key)
    (fault : shape.Fault value) (slots : Slots) :
    Refuses (readPair fields slots) (key ++ value) := by
  -- a field that is there already is refused at its key, before the value at fault is read
  by_cases free : slots[i]? = some none
  · obtain ⟨field, there, describes⟩ := described.field_of_shape i shape found
    refine Refuses.later (described.reads_key named) ?_
    simp only [Key.ofPlace, there, free]
    exact (describes.refuses value fault).head
  · exact (described.refuses_filled named free).append value

theorem reads_pairs {pairs : List Pair} {bytes : Bytes} (form : IsPairs shapes pairs bytes)
    (once : (places pairs).Nodup) (slots : Slots)
    (free : ∀ i ∈ places pairs, slots[i]? = some none) :
    Reads (readPairs fields pairs.length slots) bytes (fill slots pairs) := by
  induction form generalizing slots with
  | none => exact .pure slots
  | field i shape found datum key value named form pairs rest more ih =>
      rw [places_field] at once free
      obtain ⟨absent, once⟩ := List.nodup_cons.mp once
      have first := described.reads_field found named form (free i List.mem_cons_self)
      rw [List.length_cons, readPairs, fill, ← List.append_assoc]
      refine first.bind (ih once _ fun j member => ?_)
      rw [List.getElem?_set_ne fun same : i = j => absent (same ▸ member)]
      exact free j (List.mem_cons_of_mem i member)
  | unknown key value named form pairs rest more ih =>
      rw [List.length_cons, readPairs, fill, ← List.append_assoc]
      exact (described.reads_unknown named form slots).bind (ih once slots free)

/-- Pairs that hold a field again are refused: at the latest where it comes for the second time, it
is in its slot already. -/
theorem refuses_pairs {pairs : List Pair} {bytes : Bytes} (form : IsPairs shapes pairs bytes)
    (slots : Slots)
    (clash : ¬(places pairs).Nodup ∨ ∃ i ∈ places pairs, slots[i]? ≠ some none) :
    Refuses (readPairs fields pairs.length slots) bytes := by
  induction form generalizing slots with
  | none => simp [places] at clash
  | field i shape found datum key value named form pairs rest more ih =>
      rw [List.length_cons, readPairs]
      by_cases free : slots[i]? = some none
      · rw [← List.append_assoc]
        refine Refuses.later (described.reads_field found named form free) (ih _ ?_)
        rw [places_field, List.nodup_cons] at clash
        -- the field is in its slot from here on, so its next key is refused if there is one
        have taken : (slots.set i (some datum))[i]? ≠ some none := by
          rw [List.getElem?_set, if_pos rfl]
          split <;> simp
        rcases clash with repeated | ⟨j, member, filled⟩
        · by_cases again : i ∈ places pairs
          · exact .inr ⟨i, again, taken⟩
          · exact .inl fun once => repeated ⟨again, once⟩
        · rcases List.mem_cons.mp member with rfl | later
          · exact absurd free filled
          · refine .inr ⟨j, later, ?_⟩
            by_cases same : i = j
            · exact same ▸ taken
            · rwa [List.getElem?_set_ne same]
      · exact (described.refuses_filled named free).head.append _
  | unknown key value named form pairs rest more ih =>
      rw [List.length_cons, readPairs, ← List.append_assoc]
      exact Refuses.later (described.reads_unknown named form slots) (ih slots clash)

theorem refuses_after {pairs : List Pair} {bytes next : Bytes}
    (form : IsPairs shapes pairs bytes) (more : Nat) (slots : Slots)
    (refuses : ∀ slots, Refuses (readPairs fields more slots) next) :
    Refuses (readPairs fields (pairs.length + more) slots) (bytes ++ next) := by
  rw [readPairs_add]
  by_cases clash : ¬(places pairs).Nodup ∨ ∃ i ∈ places pairs, slots[i]? ≠ some none
  · exact (described.refuses_pairs form slots clash).head.append next
  · simp only [not_or, not_not, not_exists, not_and] at clash
    exact Refuses.later (described.reads_pairs form clash.1 slots clash.2) (refuses _)

theorem reads_row {data : List Datum} {bytes : Bytes} (form : IsRow shapes data bytes) :
    Reads (readArray fields shapes.length) bytes data := by
  have each := described.each
  clear described
  induction form generalizing fields with
  | none =>
      cases each
      exact .pure []
  | cons shape datum first form shapes data rest more ih =>
      cases each with
      | cons one more =>
          exact (one.reads datum first form).bind ((ih more).give rfl)

omit described in
theorem refuses_item {before after : List Shape} {shape : Shape} {fields : List Field}
    (each : List.Forall₂ Shape.Describes (before ++ shape :: after) fields) {data : List Datum}
    {body value : Bytes} (form : IsRow before data body) (fault : shape.Fault value) :
    Refuses (readArray fields (before ++ shape :: after).length) (body ++ value) := by
  induction form generalizing fields with
  | none =>
      cases each with
      | cons one more => exact (one.refuses value fault).head
  | cons first datum bytes form shapes data rest more ih =>
      cases each with
      | cons one others =>
          rw [List.append_assoc]
          exact Refuses.later (one.reads datum bytes form) (ih others).head

theorem free_slots {pairs : List Pair} {bytes : Bytes} (form : IsPairs shapes pairs bytes) :
    ∀ i ∈ places pairs, (fields.map fun _ => (none : Option Datum))[i]? = some none := by
  induction form with
  | none => exact fun i member => (List.not_mem_nil member).elim
  | field i shape found datum key value named form pairs rest more ih =>
      intro j member
      rcases List.mem_cons.mp member with rfl | later
      · obtain ⟨field, there, -⟩ := described.field_of_shape j shape found
        rw [List.getElem?_map, there, Option.map_some]
      · exact ih j later
  | unknown key value named form pairs rest more ih => exact ih

theorem complete_of_holds {data : List Datum} {pairs : List Pair}
    (holds : Holds shapes data pairs) :
    complete? fields (fill (fields.map fun _ => none) pairs) = some data := by
  apply complete_of_each _ _ _ (holds.size.trans described.size.symm)
  intro i field found
  obtain ⟨shape, there, describes⟩ := described.shape_of_field i field found
  have inside : i < (fields.map fun _ => (none : Option Datum)).length := by
    rw [List.length_map]
    exact (List.getElem?_eq_some_iff.mp found).1
  -- a slot that no pair fills stays empty, and its field may only be one that may be missing
  by_cases member : i ∈ places pairs
  · obtain ⟨⟨_, datum⟩, listed, rfl⟩ := List.mem_map.mp member
    obtain ⟨pair, listed, rfl⟩ := List.mem_filterMap.mp listed
    rw [fill_own _ datum pairs _ inside holds.once listed, holds.own _ datum listed]
    rfl
  · obtain ⟨datum, missing, own⟩ := holds.whole i shape there member
    have empty : (fields.map fun _ => (none : Option Datum))[i]? = some none := by
      rw [List.getElem?_map, found, Option.map_some]
    rw [fill_other i pairs _ member, empty, describes.missing, missing, own]
    rfl

theorem reads_record {data : List Datum} {bytes : Bytes} (form : IsRecord shapes data bytes) :
    Reads (readRecord fields) bytes data := by
  cases form with
  | map pairs head body size form holds =>
      obtain ⟨b, field, length, rfl, mark, count⟩ := reads_map_head size
      rw [List.cons_append]
      refine .afterMarker ?_
      rw [mark]
      refine count.bind ?_
      refine (described.reads_pairs form holds.once _ (described.free_slots form)).give ?_
      simp only [described.complete_of_holds holds]
  | array head body size form =>
      obtain ⟨b, field, length, rfl, mark, count⟩ := reads_array_head size
      rw [List.cons_append]
      refine .afterMarker ?_
      rw [mark]
      exact count.bind (described.reads_row form)

omit described in
theorem refuses_map {count : Nat} {head body : Bytes} (size : Family.map.Announces count head)
    (refuses : Refuses (readMap fields count) body) : Refuses (readRecord fields) (head ++ body) := by
  obtain ⟨b, field, length, rfl, mark, number⟩ := reads_map_head size
  rw [List.cons_append]
  refine .afterMarker ?_
  rw [mark]
  exact Refuses.later number refuses

theorem refuses_record {bytes : Bytes} (fault : IsFaulty shapes bytes) :
    Refuses (readRecord fields) bytes := by
  cases fault with
  | repeated pairs more head body rest size form twice =>
      refine refuses_map size (Refuses.head ?_)
      rw [readPairs_add]
      exact (described.refuses_pairs form _ (.inl twice)).head.append rest
  | missing pairs head body size form i shape found needed lacking =>
      refine refuses_map size ?_
      -- pairs that repeat a field are refused before the missing one is noticed
      by_cases once : (places pairs).Nodup
      · obtain ⟨field, there, describes⟩ := described.field_of_shape i shape found
        have empty : (fill (fields.map fun _ => none) pairs)[i]?.join = none := by
          rw [fill_other i pairs _ lacking, List.getElem?_map, there]
          rfl
        refine Refuses.next
          (described.reads_pairs form once _ (described.free_slots form)) ?_
        simp only [incomplete_of_lacking fields _ i field there (describes.missing.trans needed)
          empty]
      · exact (described.refuses_pairs form _ (.inl once)).head
  | pair pairs more head body key value rest size form i shape found named fault =>
      refine refuses_map size (Refuses.head ?_)
      apply described.refuses_after form
      intro slots
      rw [readPairs, ← List.append_assoc]
      exact (described.refuses_value found named fault slots).head.append rest
  | item before after shape all data head body value rest size form fault =>
      subst all
      obtain ⟨b, field, length, rfl, mark, count⟩ := reads_array_head size
      rw [List.cons_append]
      refine .afterMarker ?_
      rw [mark, ← List.append_assoc body]
      exact Refuses.later count ((refuses_item described.each form fault).append rest)

end Described

namespace Shape

theorem text_describes (name : String) : (Shape.text name).Describes (Field.text name) where
  name := rfl
  missing := rfl
  reads := by
    rintro _ bytes ⟨s, rfl, form⟩
    exact form.reads.map _
  refuses _ fault := fault.elim

theorem optionalText_describes (name : String) :
    (Shape.optionalText name).Describes (Field.optionalText name) where
  name := rfl
  missing := rfl
  reads := by
    rintro _ bytes ⟨s, rfl, form⟩
    exact form.reads.map _
  refuses _ fault := fault.elim

theorem flag_describes (name : String) : (Shape.flag name).Describes (Field.flag name) where
  name := rfl
  missing := rfl
  reads := by
    rintro _ bytes ⟨b, rfl, form⟩
    exact form.reads.map _
  refuses _ fault := fault.elim

theorem word_describes (name : String) : (Shape.word name).Describes (Field.word name) where
  name := rfl
  missing := rfl
  reads := by
    rintro _ bytes ⟨n, rfl, form⟩
    exact form.reads.map _
  refuses _ fault := fault.elim

theorem record_describes (name : String) {shapes : List Shape} {fields : List Field}
    (described : Described shapes fields) :
    (Shape.record name shapes).Describes (Field.record name fields) where
  name := rfl
  missing := rfl
  reads := by
    rintro _ bytes ⟨data, rfl, form⟩
    exact (described.reads_record form).map _
  refuses _ fault := (described.refuses_record fault).map _

end Shape

end MessagePack

open MessagePack

/-- A packed type is decoded from every form of its record, and never from one at fault. -/
structure Packed.Tolerant (α : Type) [Packed α] (shapes : List Shape) (data : α → List Datum) :
    Prop where
  decodes (v : α) (bytes tail : Bytes) : IsRecord shapes (data v) bytes →
    Packed.decode (bytes ++ tail) = .ok v
  refuses (bytes tail : Bytes) : IsFaulty shapes bytes →
    Packed.decode (α := α) (bytes ++ tail) = .error .invalid

theorem Packed.tolerant_of_described {α : Type} [Packed α] {shapes : List Shape}
    {fields : List Field} (described : Described shapes fields) (build : List Datum → Option α)
    (reader : Packed.reader = readAs fields build) {data : α → List Datum}
    (built : ∀ v, build (data v) = some v) : Packed.Tolerant α shapes data where
  decodes v bytes tail form := by
    have reads : Reads (readAs fields build) bytes v :=
      (described.reads_record form).give (by simp only [built])
    rw [Packed.decode, reader, reads]
    rfl
  refuses bytes tail fault := by
    have refuses : Refuses (readAs fields build) bytes := (described.refuses_record fault).head
    rw [Packed.decode, reader, refuses]
    rfl

theorem Visuals.described : Described shapes fields where
  each := .cons (Shape.text_describes _) <| .cons (Shape.optionalText_describes _) <|
    .cons (Shape.optionalText_describes _) <| .cons (Shape.optionalText_describes _) .nil
  distinct := by decide

theorem Snapshot.described : Described shapes fields where
  each := .cons (Shape.flag_describes _) <|
    .cons (Shape.record_describes _ Visuals.described) .nil
  distinct := by decide

theorem Package.described : Described shapes fields where
  each := .cons (Shape.text_describes _) <| .cons (Shape.optionalText_describes _) <|
    .cons (Shape.word_describes _) <| .cons (Shape.flag_describes _) .nil
  distinct := by decide

theorem App.described : Described shapes fields where
  each := .cons (Shape.text_describes _) <| .cons (Shape.text_describes _) <|
    .cons (Shape.word_describes _) <| .cons (Shape.flag_describes _) <|
    .cons (Shape.flag_describes _) <| .cons (Shape.flag_describes _) .nil
  distinct := by decide

/-- What was written by another version is read all the same: keys in any order and of either kind,
values and lengths of any width, pairs that mean nothing here, and arrays of all fields. A field
that is repeated or missing, also one of a record inside, is always noticed. -/
theorem decode_of_any_form :
    Packed.Tolerant Visuals Visuals.shapes Visuals.data ∧
      Packed.Tolerant Snapshot Snapshot.shapes Snapshot.data ∧
      Packed.Tolerant Package Package.shapes Package.data ∧
      Packed.Tolerant App App.shapes App.data := by
  refine ⟨Packed.tolerant_of_described Visuals.described Visuals.ofData? rfl
      fun v => rfl,
    Packed.tolerant_of_described Snapshot.described Snapshot.ofData? rfl fun s => rfl,
    Packed.tolerant_of_described Package.described Package.ofData? rfl fun p => ?_,
    Packed.tolerant_of_described App.described App.ofData? rfl fun a => ?_⟩
  · simp [Package.data, Package.ofData?]
  · simp [App.data, App.ofData?]

/-- Pairs of visuals from the last field to the first: a name as binary, an unknown name before
nested values, and places of different widths. -/
def reordered : Bytes :=
  [0xC4, 0x07, 0x64, 0x69, 0x73, 0x6D, 0x69, 0x73, 0x73] ++ ([0xA1, 0x4E] ++
    ([0xA1, 0x78] ++ ([0x92, 0xC0, 0x81, 0x01, 0x90] ++
    ([0xCD, 0x00, 0x01] ++ ([0xD9, 0x00] ++ ([0x00] ++ ([0xC5, 0x00, 0x01, 0x54] ++ [])))))))

theorem reordered_pairs :
    IsPairs Visuals.shapes [some (3, .optionalText (some "N")), none,
      some (1, .optionalText (some "")), some (0, .text "T")] reordered := by
  have title : IsPairs Visuals.shapes [some (0, .text "T")] _ :=
    .field 0 (.text "title") rfl _ [0x00] [0xC5, 0x00, 0x01, 0x54]
      (.index 0 (by decide) _ (.inline (by decide)))
      ⟨"T", rfl, [0xC5, 0x00, 0x01], .wide 0xC5 2 (by decide) (by decide), rfl⟩ _ _ .none
  have content : IsPairs Visuals.shapes [some (1, .optionalText (some "")), some (0, .text "T")] _ :=
    .field 1 (.optionalText "content") rfl _ [0xCD, 0x00, 0x01] [0xD9, 0x00]
      (.index 1 (by decide) _ (.wide 0xCD 2 (by decide) (by decide)))
      ⟨some "", rfl, [0xD9, 0x00], .wide 0xD9 1 (by decide) (by decide), rfl⟩ _ _ title
  have inner : Values 998 2 ([0x01] ++ ([0x90] ++ ([] ++ []))) :=
    .scalar _ _ [0x01] _ (.small 1 (by decide))
      (.array _ 0 _ [0x90] [] [] (.inline (by decide)) (.none _) (.none _))
  have items : Values 999 2 ([0xC0] ++ ([0x81] ++ (([0x01] ++ ([0x90] ++ ([] ++ []))) ++ []))) :=
    .scalar _ _ [0xC0] _ (.fixed 0xC0 [] (by decide))
      (.map 998 1 0 [0x81] _ [] (.inline (by decide)) inner (.none _))
  have strange : IsPairs Visuals.shapes (none :: _) _ :=
    .unknown [0xA1, 0x78] [0x92, 0xC0, 0x81, 0x01, 0x90]
      (.unknown [0xA1] [0x78] (.inline (by decide)) (by decide))
      (.array 999 2 0 [0x92] _ [] (.inline (by decide)) items (.none _)) _ _ content
  exact .field 3 (.optionalText "dismiss") rfl _
    [0xC4, 0x07, 0x64, 0x69, 0x73, 0x6D, 0x69, 0x73, 0x73] [0xA1, 0x4E]
    (.name 3 "dismiss" rfl _ ⟨[0xC4, 0x07], .wide 0xC4 1 (by decide) (by decide), rfl⟩)
    ⟨some "N", rfl, [0xA1], .inline (by decide), rfl⟩ _ _ strange

theorem reordered_holds :
    Holds Visuals.shapes (Visuals.data ⟨"T", some "", none, some "N"⟩)
      [some (3, .optionalText (some "N")), none, some (1, .optionalText (some "")),
        some (0, .text "T")] where
  size := rfl
  once := by decide
  own i datum member := by
    simp only [List.mem_cons, Option.some.injEq, Prod.mk.injEq, reduceCtorEq, false_or,
      List.not_mem_nil, or_false] at member
    obtain ⟨rfl, rfl⟩ | ⟨rfl, rfl⟩ | ⟨rfl, rfl⟩ := member <;> rfl
  whole i shape found absent := by
    match i with
    | 0 | 1 | 3 => exact absurd (by decide) absent
    | 2 =>
        cases found
        exact ⟨_, rfl, rfl⟩
    | _ + 4 => cases found

/-- A snapshot with its visuals by place and an unknown place before its flag, and one in an array
whose visuals have their title by name and then by place, before a pair that is not even read. -/
theorem reordered_snapshot_decodes :
    Packed.decode ([0x83, 0xCC, 0x01, 0x84] ++ reordered ++
        [0x07, 0xD4, 0x00, 0x00, 0xA7, 0x76, 0x69, 0x73, 0x69, 0x62, 0x6C, 0x65, 0xC3] ++ [0xC1]) =
      .ok (Snapshot.mk true ⟨"T", some "", none, some "N"⟩) ∧
    Packed.decode (α := Snapshot) ([0x92, 0xC3, 0x86, 0xA5, 0x74, 0x69, 0x74, 0x6C, 0x65, 0xA1,
        0x54] ++ reordered ++ [0xFF]) = .error .invalid := by
  have visuals : IsRecord Visuals.shapes _ ([0x84] ++ reordered) :=
    .map _ [0x84] _ (.inline (by decide)) reordered_pairs reordered_holds
  have visible : IsPairs Snapshot.shapes [some (0, .flag true)] _ :=
    .field 0 (.flag "visible") rfl _ [0xA7, 0x76, 0x69, 0x73, 0x69, 0x62, 0x6C, 0x65] [0xC3]
      (.name 0 "visible" rfl _ ⟨[0xA7], .inline (by decide), rfl⟩) ⟨true, rfl, rfl⟩ _ _ .none
  have strange : IsPairs Snapshot.shapes [none, some (0, .flag true)] _ :=
    .unknown [0x07] [0xD4, 0x00, 0x00] (.beyond 7 (by decide) _ (.inline (by decide)))
      (.scalar _ _ _ _ (.fixed 0xD4 [0x00, 0x00] (by decide)) (.none _)) _ _ visible
  have pairs : IsPairs Snapshot.shapes
      [some (1, .record (Visuals.data ⟨"T", some "", none, some "N"⟩)), none,
        some (0, .flag true)] _ :=
    .field 1 (.record "visuals" Visuals.shapes) rfl _ [0xCC, 0x01] ([0x84] ++ reordered)
      (.index 1 (by decide) _ (.wide 0xCC 1 (by decide) (by decide))) ⟨_, rfl, visuals⟩ _ _ strange
  have holds : Holds Snapshot.shapes (Snapshot.data ⟨true, ⟨"T", some "", none, some "N"⟩⟩)
      [some (1, .record (Visuals.data ⟨"T", some "", none, some "N"⟩)), none,
        some (0, .flag true)] := by
    refine ⟨rfl, by decide, fun i datum member => ?_, fun i shape found absent => ?_⟩
    · simp only [List.mem_cons, Option.some.injEq, Prod.mk.injEq, reduceCtorEq, false_or,
        List.not_mem_nil, or_false] at member
      obtain ⟨rfl, rfl⟩ | ⟨rfl, rfl⟩ := member <;> rfl
    · match i with
      | 0 | 1 => exact absurd (by decide) absent
      | _ + 2 => cases found
  have again : IsPairs Visuals.shapes (some (0, .text "T") :: _) _ :=
    .field 0 (.text "title") rfl _ [0xA5, 0x74, 0x69, 0x74, 0x6C, 0x65] [0xA1, 0x54]
      (.name 0 "title" rfl _ ⟨[0xA5], .inline (by decide), rfl⟩)
      ⟨"T", rfl, [0xA1], .inline (by decide), rfl⟩ _ _ reordered_pairs
  have twice : IsFaulty Visuals.shapes ([0x86] ++ (_ ++ [])) :=
    .repeated _ 1 [0x86] _ [] (.inline (by decide)) again (by decide)
  constructor
  · exact decode_of_any_form.2.1.decodes ⟨true, ⟨"T", some "", none, some "N"⟩⟩ _ [0xC1]
      (.map _ [0x83] _ (.inline (by decide)) pairs holds)
  · exact decode_of_any_form.2.1.refuses _ [0xFF]
      (.item [.flag "visible"] [] (.record "visuals" Visuals.shapes) rfl [.flag true] [0x92] [0xC3]
        _ [] (.inline (by decide)) (.cons (.flag "visible") _ [0xC3] ⟨true, rfl, rfl⟩ _ _ _ .none)
        twice)

end ModalHost
