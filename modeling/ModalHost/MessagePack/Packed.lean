import ModalHost.Visuals
import ModalHost.Apps.App
import ModalHost.MessagePack.Writer
import ModalHost.MessagePack.Record
/-!
The six types that are kept as MessagePack. `decode` reads a value from the front of the bytes and
leaves what follows it unread.
-/
namespace ModalHost

open MessagePack

class Packed (α : Type) where
  encode : α → Bytes
  reader : Reader α

export Packed (encode)

namespace Packed

variable {α : Type} [Packed α]

def decode (bytes : Bytes) : Except Fault α := Prod.fst <$> (reader (α := α)).run bytes

end Packed

def MessagePack.readAs {α : Type} (fields : List Field) (build : List Datum → Option α) :
    Reader α := do
  match build (← readRecord fields) with
  | some value => return value
  | none => Reader.invalid

namespace Visuals

def fields : List Field :=
  [.text "title", .optionalText "content", .optionalText "confirm", .optionalText "dismiss"]

def ofData? : List Datum → Option Visuals
  | [.text title, .optionalText content, .optionalText confirm, .optionalText dismiss] =>
    some ⟨title, content, confirm, dismiss⟩
  | _ => none

instance : Packed Visuals where
  encode v := writeRecord
    [("title", writeText v.title), ("content", writeOptionalText v.content),
      ("confirm", writeOptionalText v.confirm), ("dismiss", writeOptionalText v.dismiss)]
  reader := readAs fields ofData?

end Visuals

namespace Snapshot

def fields : List Field := [.flag "visible", .record "visuals" Visuals.fields]

def ofData? : List Datum → Option Snapshot
  | [.flag visible, .record visuals] => Snapshot.mk visible <$> Visuals.ofData? visuals
  | _ => none

instance : Packed Snapshot where
  encode s := writeRecord [("visible", writeFlag s.visible), ("visuals", encode s.visuals)]
  reader := readAs fields ofData?

end Snapshot

namespace Decision

def all : List Decision := [confirmed, canceled]

instance : Packed Decision where
  encode d := writeText d.name
  reader := do
    match all[← readVariant (all.map name)]? with
    | some d => return d
    | none => Reader.invalid

end Decision

namespace DialogKind

def all : List DialogKind := [loading, confirm, custom]

instance : Packed DialogKind where
  encode k := writeText k.name
  reader := do
    match all[← readVariant (all.map name)]? with
    | some k => return k
    | none => Reader.invalid

end DialogKind

namespace Package

def fields : List Field :=
  [.text "package_name", .optionalText "label", .word "uid", .flag "is_system"]

def ofData? : List Datum → Option Package
  | [.text name, .optionalText label, .word uid, .flag isSystem] =>
    some ⟨name, label, UInt32.ofNat uid, isSystem⟩
  | _ => none

instance : Packed Package where
  encode p := writeRecord
    [("package_name", writeText p.name), ("label", writeOptionalText p.label),
      ("uid", writeWord p.uid.toNat), ("is_system", writeFlag p.isSystem)]
  reader := readAs fields ofData?

end Package

namespace App

def fields : List Field :=
  [.text "label", .text "package_name", .word "uid", .flag "is_system", .flag "is_recommended",
    .flag "is_enabled_in_config"]

def ofData? : List Datum → Option App
  | [.text label, .text package, .word uid, .flag isSystem, .flag isRecommended,
      .flag isEnabled] =>
    some ⟨label, package, UInt32.ofNat uid, isSystem, isRecommended, isEnabled⟩
  | _ => none

instance : Packed App where
  encode a := writeRecord
    [("label", writeText a.label), ("package_name", writeText a.package),
      ("uid", writeWord a.uid.toNat), ("is_system", writeFlag a.isSystem),
      ("is_recommended", writeFlag a.isRecommended),
      ("is_enabled_in_config", writeFlag a.isEnabled)]
  reader := readAs fields ofData?

end App

end ModalHost
