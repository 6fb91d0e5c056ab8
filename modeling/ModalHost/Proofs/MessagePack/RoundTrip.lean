import ModalHost.Proofs.MessagePack.Records

/-! Each of the six packed types is read back as it was written, whatever follows it. -/

namespace ModalHost

open MessagePack

namespace Visuals

/-- Whether visuals have a written form: a text of 4 GiB or more has none. -/
structure Fits (v : Visuals) : Prop where
  title : MessagePack.Fits v.title
  content : ∀ s ∈ v.content, MessagePack.Fits s
  confirm : ∀ s ∈ v.confirm, MessagePack.Fits s
  dismiss : ∀ s ∈ v.dismiss, MessagePack.Fits s

def entries (v : Visuals) (fits : v.Fits) : List Entry :=
  [.text "title" v.title (by decide) fits.title,
    .optionalText "content" v.content (by decide) fits.content,
    .optionalText "confirm" v.confirm (by decide) fits.confirm,
    .optionalText "dismiss" v.dismiss (by decide) fits.dismiss]

theorem reads (v : Visuals) (fits : v.Fits) : Reads Packed.reader (encode v) v :=
  .readAs fields (v.entries fits) rfl (by decide) (by decide) ofData? v rfl

end Visuals

namespace Snapshot

def entries (s : Snapshot) (fits : s.visuals.Fits) : List Entry :=
  [.flag "visible" s.visible (by decide),
    ⟨.record "visuals" Visuals.fields, encode s.visuals, .record _,
      (Reads.record Visuals.fields (s.visuals.entries fits) rfl (by decide) (by decide)).map
        Datum.record,
      by decide⟩]

theorem reads (s : Snapshot) (fits : s.visuals.Fits) : Reads Packed.reader (encode s) s :=
  .readAs fields (s.entries fits) rfl (by decide) (by decide) ofData? s rfl

end Snapshot

theorem Decision.reads (d : Decision) : Reads Packed.reader (encode d) d := by
  cases d with
  | confirmed => exact (Reads.variant [] _ "Confirmed" (by decide) (by decide)).give rfl
  | canceled => exact (Reads.variant ["Confirmed"] _ "Canceled" (by decide) (by decide)).give rfl

theorem DialogKind.reads (k : DialogKind) : Reads Packed.reader (encode k) k := by
  cases k with
  | loading => exact (Reads.variant [] _ "Loading" (by decide) (by decide)).give rfl
  | confirm => exact (Reads.variant ["Loading"] _ "Confirm" (by decide) (by decide)).give rfl
  | custom =>
      exact (Reads.variant ["Loading", "Confirm"] _ "Custom" (by decide) (by decide)).give rfl

namespace Package

structure Fits (p : Package) : Prop where
  name : MessagePack.Fits p.name
  label : ∀ s ∈ p.label, MessagePack.Fits s

def entries (p : Package) (fits : p.Fits) : List Entry :=
  [.text "package_name" p.name (by decide) fits.name,
    .optionalText "label" p.label (by decide) fits.label,
    .word "uid" p.uid (by decide),
    .flag "is_system" p.isSystem (by decide)]

theorem reads (p : Package) (fits : p.Fits) : Reads Packed.reader (encode p) p := by
  apply Reads.readAs fields (p.entries fits) rfl (by decide) (by decide) ofData? p
  simp [entries, ofData?, Entry.text, Entry.optionalText, Entry.word, Entry.flag]

end Package

namespace App

structure Fits (a : App) : Prop where
  label : MessagePack.Fits a.label
  package : MessagePack.Fits a.package

def entries (a : App) (fits : a.Fits) : List Entry :=
  [.text "label" a.label (by decide) fits.label,
    .text "package_name" a.package (by decide) fits.package,
    .word "uid" a.uid (by decide),
    .flag "is_system" a.isSystem (by decide),
    .flag "is_recommended" a.isRecommended (by decide),
    .flag "is_enabled_in_config" a.isEnabled (by decide)]

theorem reads (a : App) (fits : a.Fits) : Reads Packed.reader (encode a) a := by
  apply Reads.readAs fields (a.entries fits) rfl (by decide) (by decide) ofData? a
  simp [entries, ofData?, Entry.text, Entry.word, Entry.flag]

end App

theorem Packed.decode_append {α : Type} [Packed α] {v : α}
    (reads : Reads Packed.reader (encode v) v) (tail : Bytes) :
    Packed.decode (encode v ++ tail) = .ok v := by
  rw [Packed.decode, reads]
  rfl

/-- Whatever follows a written value, exactly the value is read back. -/
theorem decode_encode_append (tail : Bytes) :
    (∀ v : Visuals, v.Fits → Packed.decode (encode v ++ tail) = .ok v) ∧
      (∀ s : Snapshot, s.visuals.Fits → Packed.decode (encode s ++ tail) = .ok s) ∧
      (∀ d : Decision, Packed.decode (encode d ++ tail) = .ok d) ∧
      (∀ k : DialogKind, Packed.decode (encode k ++ tail) = .ok k) ∧
      (∀ p : Package, p.Fits → Packed.decode (encode p ++ tail) = .ok p) ∧
      ∀ a : App, a.Fits → Packed.decode (encode a ++ tail) = .ok a :=
  ⟨fun v fits => Packed.decode_append (v.reads fits) tail,
    fun s fits => Packed.decode_append (s.reads fits) tail,
    fun d => Packed.decode_append d.reads tail,
    fun k => Packed.decode_append k.reads tail,
    fun p fits => Packed.decode_append (p.reads fits) tail,
    fun a fits => Packed.decode_append (a.reads fits) tail⟩

/-- Visuals whose title has a long head, and whose other texts are there but empty, or absent. -/
def wordy : Visuals := ⟨"Delete 17 files from “/data/übung” for good?", some "", none, some "Nein ❌"⟩

def remote : Package := ⟨"com.example.öffnen", none, 65536, true⟩

def listed : App := ⟨"Unknown", "com.example.game", 4294967295, false, true, false⟩

theorem wordy_decode_append :
    Packed.decode (encode wordy ++ [0xC1, 0xFF]) = .ok wordy ∧
      Packed.decode (encode (Snapshot.mk true wordy) ++ [0xC1]) = .ok (Snapshot.mk true wordy) ∧
      Packed.decode (encode remote ++ [0x84]) = .ok remote ∧
      Packed.decode (encode listed ++ [0x00]) = .ok listed := by
  have fits : wordy.Fits := ⟨by decide, by decide, by decide, by decide⟩
  exact ⟨(decode_encode_append [0xC1, 0xFF]).1 wordy fits,
    (decode_encode_append [0xC1]).2.1 ⟨true, wordy⟩ fits,
    (decode_encode_append [0x84]).2.2.2.2.1 remote ⟨by decide, by decide⟩,
    (decode_encode_append [0x00]).2.2.2.2.2 listed ⟨by decide, by decide⟩⟩

end ModalHost
