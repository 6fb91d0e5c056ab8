import ModalHost.MessagePack.Packed
import Mathlib.Data.List.Basic

/-! Every reader is decided from left to right: one closure lemma for each form a reader takes. -/

namespace ModalHost.MessagePack

/-- Bytes that decide a result do so whatever follows them, and what follows is left unread. -/
structure Steady {α : Type} (r : Reader α) : Prop where
  ok (bytes more : Bytes) (x : α) (rest : Bytes) : r.run bytes = .ok (x, rest) →
    r.run (bytes ++ more) = .ok (x, rest ++ more)
  invalid (bytes more : Bytes) : r.run bytes = .error .invalid →
    r.run (bytes ++ more) = .error .invalid

namespace Steady

variable {α β : Type}

theorem pure (x : α) : Steady (pure x : Reader α) where
  ok bytes more y rest gave := by
    cases gave
    rfl
  invalid bytes more failed := by cases failed

theorem refuse : Steady (Reader.invalid : Reader α) where
  ok bytes more y rest gave := by cases gave
  invalid bytes more _ := rfl

theorem byte : Steady Reader.byte where
  ok bytes more y rest gave := by
    cases bytes with
    | nil => cases gave
    | cons b bytes =>
        cases gave
        rfl
  invalid bytes more failed := by
    cases bytes with
    | nil => cases failed
    | cons b bytes => cases failed

theorem bind {r : Reader α} {f : α → Reader β} (head : Steady r) (tail : ∀ x, Steady (f x)) :
    Steady (r >>= f) where
  ok bytes more y rest gave := by
    rw [StateT.run_bind] at gave ⊢
    cases first : r.run bytes with
    | error fault =>
        rw [first] at gave
        cases gave
    | ok read =>
        rw [first] at gave
        rw [head.ok bytes more read.1 read.2 first]
        exact (tail read.1).ok read.2 more y rest gave
  invalid bytes more failed := by
    rw [StateT.run_bind] at failed ⊢
    cases first : r.run bytes with
    | error fault =>
        rw [first] at failed
        cases failed
        rw [head.invalid bytes more first]
        rfl
    | ok read =>
        rw [first] at failed
        rw [head.ok bytes more read.1 read.2 first]
        exact (tail read.1).invalid read.2 more failed

theorem map {r : Reader α} (f : α → β) (steady : Steady r) : Steady (f <$> r) := by
  rw [map_eq_pure_bind]
  exact steady.bind fun x => pure (f x)

theorem marker : Steady Reader.marker := byte.map Marker.ofByte

theorem take (n : Nat) : Steady (Reader.take n) := by
  induction n with
  | zero => exact pure []
  | succ n ih => exact byte.bind fun b => ih.bind fun body => pure (b :: body)

theorem bigEndian (width : Nat) : Steady (Reader.bigEndian width) :=
  (take width).bind fun _ => pure _

theorem length (length : Length) : Steady (Reader.length length) := by
  cases length with
  | inline n => exact pure n
  | field width => exact bigEndian width

theorem payload (length : Length) : Steady (Reader.payload length) :=
  (Steady.length length).bind fun n => take n

theorem textBody (length : Length) : Steady (Reader.textBody length) := by
  refine (payload length).bind fun body => ?_
  split
  · exact pure _
  · exact refuse

theorem text : Steady Reader.text := by
  refine marker.bind fun m => ?_
  split
  · exact textBody _
  · exact textBody _
  · exact refuse

theorem optionalText : Steady Reader.optionalText := by
  refine marker.bind fun m => ?_
  split
  · exact pure none
  · exact (textBody _).map some
  · exact (textBody _).map some
  · exact refuse

theorem flag : Steady Reader.flag := by
  refine marker.bind fun m => ?_
  split
  · exact pure _
  · exact refuse

theorem word : Steady Reader.word := by
  have bounded (n : Nat) : Steady (if n < 0x100000000 then Pure.pure n else Reader.invalid) := by
    split
    · exact pure n
    · exact refuse
  refine marker.bind fun m => ?_
  cases m with
  | fixint n => exact (pure n).bind bounded
  | unsigned width => exact (bigEndian width).bind bounded
  | signed width =>
      refine (bigEndian width).bind fun n => ?_
      cases Reader.nonnegative? width n with
      | some n => exact (pure n).bind bounded
      | none => exact refuse.bind bounded
  | _ => exact refuse.bind bounded

theorem times {reader : Reader Unit} (steady : Steady reader) (n : Nat) :
    Steady (Reader.times reader n) := by
  induction n with
  | zero => exact pure ()
  | succ n ih => exact steady.bind fun _ => ih

theorem scalar (m : Marker) : Steady (Reader.skip.scalar m) := by
  cases m with
  | text length => exact (payload length).bind fun _ => pure ()
  | binary length => exact (payload length).bind fun _ => pure ()
  | extension length =>
      exact (Steady.length length).bind fun n => (take _).bind fun _ => pure ()
  | unsigned width => exact (take width).bind fun _ => pure ()
  | signed width => exact (take width).bind fun _ => pure ()
  | float width => exact (take width).bind fun _ => pure ()
  | _ => exact pure ()

theorem skip (depth : Nat) : Steady (Reader.skip depth) := by
  induction depth with
  | zero =>
      refine marker.bind fun m => ?_
      cases m with
      | reserved | array _ | map _ => exact refuse
      | _ => exact scalar _
  | succ depth ih =>
      refine marker.bind fun m => ?_
      cases m with
      | reserved => exact refuse
      | array length => exact (Steady.length length).bind fun n => ih.times n
      | map length => exact (Steady.length length).bind fun n => ih.times _
      | _ => exact scalar _

theorem keyAfter (names : List String) (m : Marker) : Steady (Key.after names m) := by
  cases m with
  | text length | binary length => exact (payload length).bind fun _ => pure _
  | fixint n => exact pure _
  | unsigned width => exact (bigEndian width).bind fun _ => pure _
  | _ => exact refuse

theorem key (names : List String) : Steady (Key.read names) := marker.bind fun m => keyAfter names m

theorem known (names : List String) (m : Marker) : Steady (readVariant.known names m) := by
  refine (keyAfter names m).bind fun k => ?_
  cases k with
  | known index => exact pure index
  | unknown => exact refuse

theorem variant (names : List String) : Steady (readVariant names) := by
  refine marker.bind fun m => ?_
  cases m with
  | map length =>
      refine (Steady.length length).bind fun n => ?_
      split
      · refine marker.bind fun m => (known names m).bind fun index => marker.bind fun last => ?_
        cases last with
        | nil => exact pure index
        | _ => exact refuse
      · exact refuse
  | _ => exact known names _

variable {fields : List Field}

theorem pair (steady : ∀ field ∈ fields, Steady field.read) (slots : Slots) :
    Steady (readPair fields slots) := by
  refine (key _).bind fun k => ?_
  cases k with
  | unknown => exact (skip _).bind fun _ => pure slots
  | known index =>
      dsimp only
      split
      · rename_i field there empty
        exact (steady _ (List.mem_of_getElem? there)).bind fun value => pure _
      · exact refuse

theorem pairs (steady : ∀ field ∈ fields, Steady field.read) (n : Nat) (slots : Slots) :
    Steady (readPairs fields n slots) := by
  induction n generalizing slots with
  | zero => exact pure slots
  | succ n ih => exact (pair steady slots).bind ih

theorem array (steady : ∀ field ∈ fields, Steady field.read) (count : Nat) :
    Steady (readArray fields count) := by
  induction fields generalizing count with
  | nil =>
      cases count with
      | zero => exact pure []
      | succ count => exact refuse
  | cons field fields ih =>
      cases count with
      | zero => exact refuse
      | succ count =>
          refine (steady field List.mem_cons_self).bind fun value => ?_
          refine (ih (fun f member => steady f (List.mem_cons_of_mem _ member)) count).bind ?_
          exact fun values => pure (value :: values)

theorem record (steady : ∀ field ∈ fields, Steady field.read) : Steady (readRecord fields) := by
  refine marker.bind fun m => ?_
  cases m with
  | map length =>
      refine (Steady.length length).bind fun count => (pairs steady count _).bind fun slots => ?_
      split
      · exact pure _
      · exact refuse
  | array length => exact (Steady.length length).bind fun count => array steady count
  | _ => exact refuse

theorem readAs (steady : ∀ field ∈ fields, Steady field.read) (build : List Datum → Option α) :
    Steady (readAs fields build) := by
  refine (record steady).bind fun data => ?_
  split
  · exact pure _
  · exact refuse

end Steady

end ModalHost.MessagePack
