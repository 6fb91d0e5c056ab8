import ModalHost.Proofs.MessagePack.RoundTrip
import ModalHost.Proofs.MessagePack.Steady

/-! Decoding is decided from left to right, so a value that is cut short is always found to be. -/

namespace ModalHost

open MessagePack

namespace Packed

variable {α : Type} [Packed α]

/-- Bytes that do not end inside a value have decided the result, whatever follows them. -/
def Decisive (α : Type) [Packed α] : Prop :=
  ∀ bytes tail, decode (α := α) bytes ≠ .error .eof →
    decode (α := α) (bytes ++ tail) = decode bytes

/-- A value of which the last bytes are missing is neither read nor refused. -/
def Truncates (v : α) : Prop :=
  ∀ n < (encode v).length, decode (α := α) ((encode v).take n) = .error .eof

theorem decisive_of_steady (steady : Steady (reader (α := α))) : Decisive α := by
  intro bytes tail decided
  unfold decode at decided ⊢
  cases result : (reader (α := α)).run bytes with
  | ok read => rw [steady.ok bytes tail read.1 read.2 result]; rfl
  | error fault =>
      cases fault with
      | eof => exact absurd (by rw [result]; rfl) decided
      | invalid => rw [steady.invalid bytes tail result]

theorem truncates_of_reads {v : α} (steady : Steady (reader (α := α)))
    (reads : Reads reader (encode v) v) : Truncates v := by
  intro n short
  have split : (encode v).take n ++ (encode v).drop n = encode v := List.take_append_drop n _
  have whole : (reader (α := α)).run (encode v) = .ok (v, []) := by
    simpa only [List.append_nil] using reads []
  rw [← split] at whole
  unfold decode
  cases result : (reader (α := α)).run ((encode v).take n) with
  | ok read =>
      -- the whole would leave what the cut bytes leave and all that is missing, but leaves nothing
      rw [steady.ok _ _ read.1 read.2 result] at whole
      have nothing : read.2 ++ (encode v).drop n = [] := congrArg Prod.snd (Except.ok.inj whole)
      have missing := List.drop_eq_nil_iff.mp (List.append_eq_nil_iff.mp nothing).2
      omega
  | error fault =>
      cases fault with
      | eof => rfl
      | invalid =>
          rw [steady.invalid _ _ result] at whole
          cases whole

end Packed

namespace MessagePack.Steady

theorem fieldText (name : String) : Steady (Field.text name).read := text.map _

theorem fieldOptionalText (name : String) : Steady (Field.optionalText name).read :=
  optionalText.map _

theorem fieldFlag (name : String) : Steady (Field.flag name).read := flag.map _

theorem fieldWord (name : String) : Steady (Field.word name).read := word.map _

theorem fieldRecord (name : String) {fields : List Field}
    (steady : ∀ field ∈ fields, Steady field.read) : Steady (Field.record name fields).read :=
  (record steady).map _

end MessagePack.Steady

theorem Visuals.steady_fields : ∀ field ∈ Visuals.fields, Steady field.read := by
  simp only [Visuals.fields, List.forall_mem_cons]
  exact ⟨.fieldText _, .fieldOptionalText _, .fieldOptionalText _, .fieldOptionalText _,
    List.forall_mem_nil _⟩

theorem Visuals.steady : Steady (Packed.reader (α := Visuals)) :=
  .readAs Visuals.steady_fields _

theorem Snapshot.steady : Steady (Packed.reader (α := Snapshot)) := by
  apply Steady.readAs
  simp only [Snapshot.fields, List.forall_mem_cons]
  exact ⟨.fieldFlag _, .fieldRecord _ Visuals.steady_fields, List.forall_mem_nil _⟩

theorem Decision.steady : Steady (Packed.reader (α := Decision)) := by
  refine (Steady.variant _).bind fun index => ?_
  split
  · exact .pure _
  · exact .refuse

theorem DialogKind.steady : Steady (Packed.reader (α := DialogKind)) := by
  refine (Steady.variant _).bind fun index => ?_
  split
  · exact .pure _
  · exact .refuse

theorem Package.steady : Steady (Packed.reader (α := Package)) := by
  apply Steady.readAs
  simp only [Package.fields, List.forall_mem_cons]
  exact ⟨.fieldText _, .fieldOptionalText _, .fieldWord _, .fieldFlag _, List.forall_mem_nil _⟩

theorem App.steady : Steady (Packed.reader (α := App)) := by
  apply Steady.readAs
  simp only [App.fields, List.forall_mem_cons]
  exact ⟨.fieldText _, .fieldText _, .fieldWord _, .fieldFlag _, .fieldFlag _, .fieldFlag _,
    List.forall_mem_nil _⟩

/-- For each packed type: bytes that settle the result settle it for good, and every value that is
cut short is recognised as such. -/
theorem decode_left_to_right :
    (Packed.Decisive Visuals ∧ ∀ v : Visuals, v.Fits → Packed.Truncates v) ∧
      (Packed.Decisive Snapshot ∧ ∀ s : Snapshot, s.visuals.Fits → Packed.Truncates s) ∧
      (Packed.Decisive Decision ∧ ∀ d : Decision, Packed.Truncates d) ∧
      (Packed.Decisive DialogKind ∧ ∀ k : DialogKind, Packed.Truncates k) ∧
      (Packed.Decisive Package ∧ ∀ p : Package, p.Fits → Packed.Truncates p) ∧
      Packed.Decisive App ∧ ∀ a : App, a.Fits → Packed.Truncates a := by
  refine ⟨⟨Packed.decisive_of_steady Visuals.steady, fun v fits => ?_⟩,
    ⟨Packed.decisive_of_steady Snapshot.steady, fun s fits => ?_⟩,
    ⟨Packed.decisive_of_steady Decision.steady, fun d => ?_⟩,
    ⟨Packed.decisive_of_steady DialogKind.steady, fun k => ?_⟩,
    ⟨Packed.decisive_of_steady Package.steady, fun p fits => ?_⟩,
    Packed.decisive_of_steady App.steady, fun a fits => ?_⟩
  · exact Packed.truncates_of_reads Visuals.steady (v.reads fits)
  · exact Packed.truncates_of_reads Snapshot.steady (s.reads fits)
  · exact Packed.truncates_of_reads Decision.steady d.reads
  · exact Packed.truncates_of_reads DialogKind.steady k.reads
  · exact Packed.truncates_of_reads Package.steady (p.reads fits)
  · exact Packed.truncates_of_reads App.steady (a.reads fits)

/-- A snapshot without the last byte of its last text, and an array that declares a field too few:
the missing one is noticed only after the fields that are there. -/
theorem cut_snapshot_and_short_array :
    Packed.decode (α := Snapshot) ((encode (Snapshot.mk true wordy)).dropLast) = .error .eof ∧
      Packed.decode (α := Package) ([0x93, 0xA1, 0x61, 0xC0, 0x07] ++ [0xC3]) =
        .error .invalid := by
  have fits : wordy.Fits := ⟨by decide, by decide, by decide, by decide⟩
  constructor
  · rw [List.dropLast_eq_take]
    exact decode_left_to_right.2.1.2 ⟨true, wordy⟩ fits _ (by decide +kernel)
  · have settled : Packed.decode (α := Package) [0x93, 0xA1, 0x61, 0xC0, 0x07] =
        .error .invalid := rfl
    rw [decode_left_to_right.2.2.2.2.1.1 _ [0xC3] (by rw [settled]; simp), settled]

end ModalHost
