import ModalHost.Proofs.MessagePack.Grammar
import ModalHost.Proofs.MessagePack.Records

/-! Every form of a length, text, number, key or unknown value is read as what it stands for. -/

namespace ModalHost.MessagePack

/-- The reader refuses bytes that start so, whatever follows them. -/
def Refuses {α : Type} (r : Reader α) (bytes : Bytes) : Prop :=
  ∀ rest, r.run (bytes ++ rest) = .error .invalid

namespace Refuses

variable {α β : Type} {r : Reader α} {f : α → Reader β} {first second : Bytes} {x : α}

theorem invalid : Refuses (Reader.invalid : Reader α) [] := fun _ => rfl

theorem append (refuses : Refuses r first) (second : Bytes) : Refuses r (first ++ second) := by
  intro rest
  rw [List.append_assoc]
  exact refuses _

theorem head (refuses : Refuses r first) : Refuses (r >>= f) first := by
  intro rest
  rw [StateT.run_bind, refuses]
  rfl

theorem later (reads : Reads r first x) (refuses : Refuses (f x) second) :
    Refuses (r >>= f) (first ++ second) := by
  intro rest
  rw [StateT.run_bind, List.append_assoc, reads]
  exact refuses rest

theorem next (reads : Reads r first x) (refused : f x = Reader.invalid) :
    Refuses (r >>= f) first := by
  have both : Refuses (r >>= f) (first ++ []) := later reads (refused ▸ invalid)
  rwa [List.append_nil] at both

theorem map (g : α → β) (refuses : Refuses r first) : Refuses (g <$> r) first := by
  rw [map_eq_pure_bind]
  exact refuses.head

theorem afterMarker {f : Marker → Reader β} {b : UInt8} {body : Bytes}
    (refuses : Refuses (f (Marker.ofByte b)) body) : Refuses (Reader.marker >>= f) (b :: body) :=
  later (Reads.marker b) refuses

end Refuses

theorem Reads.afterMarker {β : Type} {f : Marker → Reader β} {b : UInt8} {body : Bytes} {y : β}
    (reads : Reads (f (Marker.ofByte b)) body y) : Reads (Reader.marker >>= f) (b :: body) y :=
  (Reads.marker b).bind reads

theorem Family.Announces.reads {f : Family} {n : Nat} {bytes : Bytes} (form : f.Announces n bytes)
    (marks : Marker → Length → Prop)
    (inline : ∀ n < f.limit, marks (Marker.ofByte (UInt8.ofNat (f.base + n))) (.inline n))
    (wide : ∀ entry ∈ f.wide, marks (Marker.ofByte entry.1) (.field entry.2)) :
    ∃ b field length, bytes = b :: field ∧ marks (Marker.ofByte b) length ∧
      Reads (Reader.length length) field n := by
  cases form with
  | inline small => exact ⟨_, [], _, rfl, inline n small, .pure n⟩
  | wide b width listed room => exact ⟨b, _, _, rfl, wide _ listed, .bigEndian width n room⟩

def OfText (m : Marker) (length : Length) : Prop := m = .text length ∨ m = .binary length

theorem reads_text_head {n : Nat} {head : Bytes} (size : Family.text.Announces n head) :
    ∃ b field length, head = b :: field ∧ OfText (Marker.ofByte b) length ∧
      Reads (Reader.length length) field n := by
  apply size.reads
  · intro n small
    exact .inl (marker_text n small)
  · simp only [Family.text, List.forall_mem_cons]
    exact ⟨.inl rfl, .inl rfl, .inl rfl, .inr rfl, .inr rfl, .inr rfl, List.forall_mem_nil _⟩

theorem marker_array (n : Nat) (small : n < 0x10) :
    Marker.ofByte (UInt8.ofNat (0x90 + n)) = .array (.inline n) := by
  have byte : (UInt8.ofNat (0x90 + n)).toNat = 0x90 + n := toNat_ofNat_byte (by omega)
  simp only [Marker.ofByte, byte]
  rw [if_neg (by omega), if_neg (by omega), if_pos (by omega), Nat.add_sub_cancel_left]

theorem marker_negative (n : Nat) (small : n < 0x20) :
    Marker.ofByte (UInt8.ofNat (0xE0 + n)) = .negative := by
  have byte : (UInt8.ofNat (0xE0 + n)).toNat = 0xE0 + n := toNat_ofNat_byte (by omega)
  simp only [Marker.ofByte, byte]
  rw [if_neg (by omega), if_neg (by omega), if_neg (by omega), if_neg (by omega),
    if_pos (by omega)]

theorem reads_array_head {n : Nat} {head : Bytes} (size : Family.array.Announces n head) :
    ∃ b field length, head = b :: field ∧ Marker.ofByte b = .array length ∧
      Reads (Reader.length length) field n := by
  apply size.reads fun m length => m = .array length
  · exact marker_array
  · simp only [Family.array, List.forall_mem_cons]
    exact ⟨rfl, rfl, List.forall_mem_nil _⟩

theorem reads_map_head {n : Nat} {head : Bytes} (size : Family.map.Announces n head) :
    ∃ b field length, head = b :: field ∧ Marker.ofByte b = .map length ∧
      Reads (Reader.length length) field n := by
  apply size.reads fun m length => m = .map length
  · exact marker_map
  · simp only [Family.map, List.forall_mem_cons]
    exact ⟨rfl, rfl, List.forall_mem_nil _⟩

def OfUnsigned (m : Marker) : Length → Prop
  | .inline n => m = .fixint n
  | .field width => m = .unsigned width

theorem reads_unsigned {n : Nat} {bytes : Bytes} (form : Family.unsigned.Announces n bytes) :
    ∃ b field length, bytes = b :: field ∧ OfUnsigned (Marker.ofByte b) length ∧
      Reads (Reader.length length) field n := by
  apply form.reads
  · intro n small
    rw [Family.unsigned, Nat.zero_add]
    exact marker_fixint n small
  · simp only [Family.unsigned, List.forall_mem_cons]
    exact ⟨rfl, rfl, rfl, rfl, List.forall_mem_nil _⟩

theorem reads_extension_head {n : Nat} {head : Bytes} (size : Family.extension.Announces n head) :
    ∃ b field length, head = b :: field ∧ Marker.ofByte b = .extension length ∧
      Reads (Reader.length length) field n := by
  apply size.reads fun m length => m = .extension length
  · exact fun n small => absurd small (Nat.not_lt_zero n)
  · simp only [Family.extension, List.forall_mem_cons]
    exact ⟨rfl, rfl, rfl, List.forall_mem_nil _⟩

theorem IsText.split {s : String} {bytes : Bytes} (form : IsText s bytes) :
    ∃ b field length, bytes = [b] ++ (field ++ Utf8.ofString s) ∧
      OfText (Marker.ofByte b) length ∧
      Reads (Reader.length length) field (Utf8.ofString s).length := by
  obtain ⟨head, size, rfl⟩ := form
  obtain ⟨b, field, length, rfl, mark, reads⟩ := reads_text_head size
  exact ⟨b, field, length, rfl, mark, reads⟩

theorem IsText.reads {s : String} {bytes : Bytes} (form : IsText s bytes) :
    Reads Reader.text bytes s := by
  obtain ⟨b, field, length, rfl, mark, head⟩ := form.split
  refine (Reads.marker b).bind ?_
  rcases mark with mark | mark
  all_goals
    rw [mark]
    exact .textBody s head

theorem IsOptionalText.reads {s : Option String} {bytes : Bytes} (form : IsOptionalText s bytes) :
    Reads Reader.optionalText bytes s := by
  cases s with
  | none =>
      obtain rfl : bytes = [0xC0] := form
      exact (Reads.marker 0xC0).give rfl
  | some s =>
      obtain ⟨b, field, length, rfl, mark, head⟩ := IsText.split form
      refine (Reads.marker b).bind ?_
      rcases mark with mark | mark
      all_goals
        rw [mark]
        exact (Reads.textBody s head).map some

theorem IsFlag.reads {b : Bool} {bytes : Bytes} (form : IsFlag b bytes) :
    Reads Reader.flag bytes b := by
  obtain rfl : bytes = writeFlag b := form
  exact .flag b

theorem IsWord.reads {n : Nat} {bytes : Bytes} (form : IsWord n bytes) :
    Reads Reader.word bytes n := by
  cases form with
  | unsigned small bytes form =>
      have bounded : n < 0x100000000 := small
      obtain ⟨b, field, length, rfl, mark, number⟩ := reads_unsigned form
      refine (Reads.marker b).bind ?_
      cases length with
      | inline k =>
          rw [show Marker.ofByte b = .fixint k from mark]
          exact number.give (if_pos bounded)
      | field width =>
          rw [show Marker.ofByte b = .unsigned width from mark]
          exact number.give (if_pos bounded)
  | signed small b width listed positive =>
      have bounded : n < 0x100000000 := small
      have mark : Marker.ofByte b = .signed width := by
        simp only [List.mem_cons, Prod.mk.injEq, List.not_mem_nil, or_false] at listed
        rcases listed with ⟨rfl, rfl⟩ | ⟨rfl, rfl⟩ | ⟨rfl, rfl⟩ | ⟨rfl, rfl⟩
        all_goals rfl
      have number := Reads.bigEndian width n (by omega)
      have nonnegative : Reader.nonnegative? width n = some n := if_pos positive
      refine .afterMarker ?_
      rw [mark]
      refine number.give ?_
      rw [nonnegative]
      exact if_pos bounded

theorem ofName_found {names : List String} (distinct : names.Nodup) (i : Nat) (s : String)
    (found : names[i]? = some s) : Key.ofName names (Utf8.ofString s) = .known i := by
  obtain ⟨inside, here⟩ := List.getElem?_eq_some_iff.mp found
  have split : names.take i ++ s :: names.drop (i + 1) = names := by
    rw [← here, List.getElem_cons_drop, List.take_append_drop]
  have size : (names.take i).length = i := List.length_take_of_le (Nat.le_of_lt inside)
  have absent : s ∉ names.take i := by
    intro member
    rw [← split, List.nodup_append] at distinct
    exact distinct.2.2 s member s List.mem_cons_self rfl
  have known := ofName_known (names.take i) (names.drop (i + 1)) s absent
  rwa [split, size] at known

theorem ofName_unknown {names : List String} {body : Bytes}
    (strange : ∀ s ∈ names, Utf8.ofString s ≠ body) : Key.ofName names body = .unknown := by
  have none : names.findIdx? (Utf8.ofString · == body) = none := by
    rw [List.findIdx?_eq_none_iff]
    intro s member
    exact beq_false_of_ne (strange s member)
  rw [Key.ofName, none]

def Key.ofPlace : Option Nat → Key
  | some i => .known i
  | none => .unknown

theorem reads_index_key (names : List String) {i : Nat} {bytes : Bytes}
    (form : Family.unsigned.Announces i bytes) :
    Reads (Key.read names) bytes (Key.ofIndex names i) := by
  obtain ⟨b, field, length, rfl, mark, number⟩ := reads_unsigned form
  refine (Reads.marker b).bind ?_
  cases length with
  | inline k =>
      rw [show Marker.ofByte b = .fixint k from mark]
      exact number.give (f := fun n => pure (Key.ofIndex names n)) rfl
  | field width =>
      rw [show Marker.ofByte b = .unsigned width from mark]
      exact number.give rfl

theorem reads_name_key (names : List String) {head body : Bytes}
    (size : Family.text.Announces body.length head) :
    Reads (Key.read names) (head ++ body) (Key.ofName names body) := by
  obtain ⟨b, field, length, rfl, mark, reads⟩ := reads_text_head size
  rw [List.cons_append]
  refine .afterMarker ?_
  rcases mark with mark | mark
  all_goals
    rw [mark]
    exact (Reads.payload body reads).give rfl

theorem IsKey.reads {names : List String} (distinct : names.Nodup) {place : Option Nat}
    {bytes : Bytes} (form : IsKey names place bytes) :
    Reads (Key.read names) bytes (Key.ofPlace place) := by
  cases form with
  | name i s found bytes form =>
      obtain ⟨head, size, rfl⟩ := form
      rw [Key.ofPlace, ← ofName_found distinct i s found]
      exact reads_name_key names size
  | index i inside bytes form =>
      rw [Key.ofPlace, ← show Key.ofIndex names i = .known i from if_pos inside]
      exact reads_index_key names form
  | unknown head body size strange =>
      rw [Key.ofPlace, ← ofName_unknown strange]
      exact reads_name_key names size
  | beyond i outside bytes form =>
      rw [Key.ofPlace,
        ← show Key.ofIndex names i = .unknown from if_neg (Nat.not_lt.mpr outside)]
      exact reads_index_key names form

def Marker.Leaf : Marker → Prop
  | .reserved | .array _ | .map _ => False
  | _ => True

theorem reads_leaf (depth : Nat) (b : UInt8) {body : Bytes} (leaf : (Marker.ofByte b).Leaf)
    (reads : Reads (Reader.skip.scalar (Marker.ofByte b)) body ()) :
    Reads (Reader.skip depth) (b :: body) () := by
  cases depth with
  | zero =>
      refine .afterMarker ?_
      cases kind : Marker.ofByte b <;> simp_all [Marker.Leaf]
  | succ depth =>
      refine .afterMarker ?_
      cases kind : Marker.ofByte b <;> simp_all [Marker.Leaf]

theorem leaf_of_fixed {b : UInt8} {width : Nat} (listed : (b, width) ∈ fixedWidths) :
    (Marker.ofByte b).Leaf ∧
      ∀ body : Bytes, body.length = width →
        Reads (Reader.skip.scalar (Marker.ofByte b)) body () := by
  have nothing (m : Marker) (skips : Reader.skip.scalar m = pure ()) :
      ∀ body : Bytes, body.length = 0 → Reads (Reader.skip.scalar m) body () := by
    intro body empty
    rw [List.length_eq_zero_iff.mp empty, skips]
    exact .pure ()
  have some (m : Marker) (width : Nat)
      (skips : Reader.skip.scalar m = do let _ ← Reader.take width) :
      ∀ body : Bytes, body.length = width → Reads (Reader.skip.scalar m) body () := by
    rintro body rfl
    rw [skips]
    exact (Reads.take body).give rfl
  simp only [fixedWidths, List.mem_cons, Prod.mk.injEq, List.not_mem_nil, or_false] at listed
  -- nothing follows the first three of these markers
  rcases listed with ⟨rfl, rfl⟩ | ⟨rfl, rfl⟩ | ⟨rfl, rfl⟩ | listed
  iterate 3 exact ⟨trivial, nothing _ rfl⟩
  rcases listed with ⟨rfl, rfl⟩ | ⟨rfl, rfl⟩ | ⟨rfl, rfl⟩ | ⟨rfl, rfl⟩ | ⟨rfl, rfl⟩ | ⟨rfl, rfl⟩ |
    ⟨rfl, rfl⟩ | ⟨rfl, rfl⟩ | ⟨rfl, rfl⟩ | ⟨rfl, rfl⟩ | ⟨rfl, rfl⟩ | ⟨rfl, rfl⟩ | ⟨rfl, rfl⟩ |
    ⟨rfl, rfl⟩ | ⟨rfl, rfl⟩
  all_goals exact ⟨trivial, some _ _ rfl⟩

theorem Scalar.reads {bytes : Bytes} (form : Scalar bytes) (depth : Nat) :
    Reads (Reader.skip depth) bytes () := by
  cases form with
  | small n positive =>
      have mark := marker_fixint n positive
      exact reads_leaf depth _ (by rw [mark]; trivial) (by rw [mark]; exact .pure ())
  | negative n high =>
      have mark := marker_negative n high
      exact reads_leaf depth _ (by rw [mark]; trivial) (by rw [mark]; exact .pure ())
  | fixed b body listed =>
      obtain ⟨leaf, reads⟩ := leaf_of_fixed listed
      exact reads_leaf depth b leaf (reads body rfl)
  | text head body size =>
      obtain ⟨b, field, length, rfl, mark, number⟩ := reads_text_head size
      rw [List.cons_append]
      refine reads_leaf depth b ?_ ?_
      · rcases mark with mark | mark <;> rw [mark] <;> trivial
      · have skipped := (Reads.payload body number).give (f := fun _ => pure ()) rfl
        rcases mark with mark | mark <;> rw [mark] <;> exact skipped
  | extension head kind body size =>
      obtain ⟨b, field, length, rfl, mark, number⟩ := reads_extension_head size
      have skipped : Reads (Reader.take (1 + body.length)) (kind :: body) (kind :: body) := by
        rw [Nat.add_comm]
        exact .take (kind :: body)
      rw [List.cons_append]
      refine reads_leaf depth b (by rw [mark]; trivial) ?_
      rw [mark]
      exact number.bind (skipped.give rfl)

theorem Values.reads {depth n : Nat} {bytes : Bytes} (form : Values depth n bytes) (limit : Nat)
    (room : depth ≤ limit) : Reads (Reader.times (Reader.skip limit) n) bytes () := by
  induction form generalizing limit with
  | none depth => exact .pure ()
  | scalar depth n first rest one more ih => exact (one.reads limit).bind (ih limit room)
  | array depth count n head items rest size inside more ihItems ihRest =>
      -- what is inside is one level deeper, what follows is not
      obtain ⟨limit, rfl⟩ : ∃ below, limit = below + 1 := ⟨limit - 1, by omega⟩
      obtain ⟨b, field, length, rfl, mark, number⟩ := reads_array_head size
      have whole : Reads (Reader.skip (limit + 1)) (b :: (field ++ items)) () := by
        refine .afterMarker ?_
        rw [mark]
        exact number.bind (ihItems limit (by omega))
      have all := whole.bind (f := fun _ => Reader.times _ n) (ihRest (limit + 1) room)
      rwa [List.cons_append, List.append_assoc] at all
  | map depth count n head pairs rest size inside more ihPairs ihRest =>
      obtain ⟨limit, rfl⟩ : ∃ below, limit = below + 1 := ⟨limit - 1, by omega⟩
      obtain ⟨b, field, length, rfl, mark, number⟩ := reads_map_head size
      have whole : Reads (Reader.skip (limit + 1)) (b :: (field ++ pairs)) () := by
        refine .afterMarker ?_
        rw [mark]
        exact number.bind (ihPairs limit (by omega))
      have all := whole.bind (f := fun _ => Reader.times _ n) (ihRest (limit + 1) room)
      rwa [List.cons_append, List.append_assoc] at all

theorem Values.reads_one {bytes : Bytes} (form : Values unknownDepth 1 bytes) :
    Reads (Reader.skip Reader.nestingLimit) bytes () := by
  have one := form.reads Reader.nestingLimit (by decide)
  intro rest
  have skipped := one rest
  cases result : (Reader.skip Reader.nestingLimit).run (bytes ++ rest) with
  | ok read =>
      simp only [Reader.times, StateT.run_bind, result] at skipped
      exact skipped
  | error fault =>
      simp only [Reader.times, StateT.run_bind, result] at skipped
      exact skipped

end ModalHost.MessagePack
