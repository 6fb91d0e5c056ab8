import ModalHost.Apps.ListFiles
import ModalHost.Proofs.Json.DoubleRange
import ModalHost.Proofs.Json.Values

/-! The enabled packages are the keys of the object in the file, and no start of the file that ends
before the object does enables any. -/

namespace ModalHost.Applist

open Json

variable {content cut : Bytes} {text : List Char} {keys : List (List Char)}

theorem read_of_decode (decoded : Utf8.decode content = some text) :
    read (.bytes content) = nameSet ((objectKeys? text).getD []) := by
  simp only [read, FileContent.text, decoded]

theorem read_of_decode_eq_none (undecodable : Utf8.decode content = none) :
    read (.bytes content) = [] := by
  simp only [read, FileContent.text, undecodable]

theorem nameSet_nil : nameSet [] = [] := by
  simp [nameSet]

/-! ### A file that was not written to its end -/

theorem getLast?_missing {missing : List Char}
    (closed : (cut ++ Utf8.encode missing).getLast? = some 0x7D) (some_left : missing ≠ []) :
    missing.getLast? = some '}' := by
  have last : (Utf8.encode missing).getLast? = some 0x7D := by
    rw [List.getLast?_append] at closed
    cases found : (Utf8.encode missing).getLast? with
    | none =>
        have empty := List.getLast?_eq_none_iff.mp found
        exact absurd (Utf8.encode_eq_nil_iff.mp empty) some_left
    | some byte => rwa [found, Option.some_or] at closed
  exact Utf8.getLast?_of_encode (by decide) last

/-- Nothing is enabled by a file that holds less than the whole object, wherever it was cut. -/
theorem read_eq_nil_of_cut (decoded : Utf8.decode content = some text)
    (object : objectKeys? text = some keys) (closed : content.getLast? = some 0x7D)
    (part : cut <+: content) (shorter : cut ≠ content) : read (.bytes cut) = [] := by
  cases decoded_cut : Utf8.decode cut with
  | none => exact read_of_decode_eq_none decoded_cut
  | some t =>
      obtain ⟨missing, rfl, rfl⟩ := Utf8.decode_prefix decoded part decoded_cut
      have some_left : missing ≠ [] := by
        rintro rfl
        exact shorter (List.append_nil cut).symm
      rw [read_of_decode decoded_cut]
      cases first : objectKeys? t with
      | none => exact nameSet_nil
      | some found =>
          have last := getLast?_missing closed some_left
          have blank := isGap_of_objectKeys? first object '}' (List.mem_of_getLast? last)
          exact absurd blank (by decide)

def twoEnabled : List Char := "\x7b\"a\\u0301\": [1.5e3, \x7b\"x\": null\x7d], \"é\": 2\x7d".toList

theorem twoEnabled_cut : "é" ∈ read (.bytes (Utf8.encode twoEnabled)) ∧
    ∀ length < 42, read (.bytes ((Utf8.encode twoEnabled).take length)) = [] := by
  have object : objectKeys? twoEnabled = some ["a\u0301".toList, "é".toList] := by decide +kernel
  have bytes : (Utf8.encode twoEnabled).length = 42 := by decide +kernel
  have closed : (Utf8.encode twoEnabled).getLast? = some 0x7D := by decide +kernel
  constructor
  · rw [read_of_decode (Utf8.decode_encode twoEnabled), object, mem_nameSet]
    decide
  · intro length less
    apply read_eq_nil_of_cut (Utf8.decode_encode twoEnabled) object closed (List.take_prefix _ _)
    intro same
    have := congrArg List.length same
    rw [List.length_take] at this
    omega

/-! ### The keys -/

/-- The file is the text of an object of these members, with no more than 127 containers inside each
other and no number that is too large for the reader. -/
inductive Holds (members : List (List Char × Value)) : FileContent → Prop
  | object {s : List Char} (written : ElementText (.object members) s)
      (admitted : (Value.object members).Fits (fun n => n.inRange = true) 127) :
      Holds members (.bytes (Utf8.encode s))

theorem mem_read_of_holds {file : FileContent} {members : List (List Char × Value)}
    (holds : Holds members file) (name : String) :
    name ∈ read file ↔ name.toList ∈ members.map Prod.fst := by
  obtain ⟨written, admitted⟩ := holds
  rename_i s
  have keys : objectKeys? s = some (members.map Prod.fst) :=
    objectKeys?_eq_some_iff.mpr ⟨members, written, admitted, rfl⟩
  have decoded : (FileContent.bytes (Utf8.encode s)).text = .ok s := by
    simp only [FileContent.text, Utf8.decode_encode]
  rw [mem_read decoded, keys, Option.getD_some]

theorem read_eq_nil_of_not_holds {file : FileContent}
    (other : ∀ members, ¬Holds members file) : read file = [] := by
  cases file with
  | absent => rfl
  | directory => rfl
  | bytes content =>
      cases decoded : Utf8.decode content with
      | none => exact read_of_decode_eq_none decoded
      | some s =>
          rw [read_of_decode decoded]
          cases read_keys : objectKeys? s with
          | none => exact nameSet_nil
          | some keys =>
              obtain ⟨members, written, admitted, -⟩ := objectKeys?_eq_some_iff.mp read_keys
              obtain rfl := Utf8.encode_of_decode decoded
              exact absurd (Holds.object written admitted) (other members)

/-- The packages that a file enables are the keys of its object, values apart, and there are none if
it holds anything else. The numbers that the reader takes are those whose value is within the range
of doubles, but for so small a part at its end as three roundings can move a number across. -/
theorem read_exactly_keys :
    (∀ file members, Holds members file →
      ∀ name : String, name ∈ read file ↔ name.toList ∈ members.map Prod.fst) ∧
    (∀ file, (∀ members, ¬Holds members file) → read file = []) ∧
    ∀ isNegative n t, NumberText isNegative n t → withDigits 0 n.exponent < 2 ^ 31 →
      (n.magnitude ≤ 2 ^ 1024 - 2 ^ 973 → n.inRange = true) ∧
        (2 ^ 1024 + 2 ^ 973 ≤ n.magnitude → n.inRange = false) := by
  refine ⟨fun _ _ => mem_read_of_holds, fun _ => read_eq_nil_of_not_holds, ?_⟩
  intro isNegative n t written bounded
  have decimal := written.decimal
  exact ⟨Numeral.inRange_of_magnitude_le decimal bounded,
    Numeral.not_inRange_of_le_magnitude decimal bounded⟩

def mixed : List Char :=
  ("\t\x7b \"\\ud83d\\ude00\" : [ \x7b \"x\" : -1.5E+3 \x7d ] ,\r\n" ++
    "\"a\":null, \"a\":\x7b\x7d\x7d ").toList

def quarter : Numeral where
  whole := [0]
  fraction := [2, 5]
  negativeExponent := false
  exponent := []

theorem mixed_keys :
    (∀ name : String, name ∈ read (.bytes (Utf8.encode mixed)) ↔ name = "😀" ∨ name = "a") ∧
      read .directory = [] ∧ quarter.inRange = true := by
  refine ⟨?_, ?_, ?_⟩
  · have read_keys : objectKeys? mixed = some ["😀".toList, "a".toList, "a".toList] := by
      decide +kernel
    obtain ⟨members, written, admitted, keys⟩ := objectKeys?_eq_some_iff.mp read_keys
    intro name
    rw [read_exactly_keys.1 _ members (.object written admitted), ← keys]
    simp only [List.mem_cons, List.not_mem_nil, or_false, or_self, String.toList_inj]
  · apply read_exactly_keys.2.1 .directory
    intro members holds
    cases holds
  · have whole : IsWhole [0] := ⟨⟨nofun, by decide⟩, fun _ => rfl⟩
    have places : IsDigits quarter.fraction := ⟨nofun, by decide⟩
    have written : NumberText false quarter "0.25".toList :=
      .parts whole (.present places) .absent
    apply (read_exactly_keys.2.2 _ _ _ written (by decide)).1
    have unit : (1 : Rat) ≤ 2 ^ 973 := one_le_pow₀ (by norm_num)
    have scale : quarter.scale = -2 := by decide
    have digits : withDigits 0 (quarter.whole ++ quarter.fraction) = 25 := by decide
    rw [Numeral.magnitude, digits, scale, end_of_range]
    generalize (2 : Rat) ^ 973 = u at *
    norm_num
    linarith

/-- A number just below the largest double, of which the reader rounds both factors up. -/
def nearlyLargest : Numeral where
  whole := [1, 7, 9, 7, 6, 9, 3, 1, 3, 4, 8, 6, 2, 3, 1, 5, 7, 0, 8]
  fraction := []
  negativeExponent := false
  exponent := [2, 9, 0]

def nearlyLargestText : List Char := "\x7b\"a\":1797693134862315708e290\x7d".toList

theorem nearlyLargest_le : nearlyLargest.magnitude ≤ largestDouble := by
  have below : 1797693134862315708 * 10 ^ 290 ≤ largestDouble := by decide +kernel
  have digits : withDigits 0 (nearlyLargest.whole ++ nearlyLargest.fraction) =
      1797693134862315708 := by decide
  have scale : nearlyLargest.scale = (290 : Nat) := by decide
  rw [Numeral.magnitude, digits, scale, zpow_natCast]
  have cast : ((1797693134862315708 * 10 ^ 290 : Nat) : Rat) ≤ largestDouble :=
    Nat.cast_le.mpr below
  rwa [Nat.cast_mul, Nat.cast_pow, Nat.cast_ofNat] at cast

theorem nearlyLargest_written :
    ElementText (.object [("a".toList, .number false nearlyLargest)]) nearlyLargestText := by
  have no_gap : IsGap [] := nofun
  have key : StringText "a".toList "\"a\"".toList :=
    .quoted (.cons (.plain (by decide) (by decide) (by decide)) .nil)
  have whole : IsWhole nearlyLargest.whole := ⟨⟨nofun, by decide⟩, nofun⟩
  have number : NumberText false nearlyLargest "1797693134862315708e290".toList :=
    .parts whole .absent (.bare (.inl rfl) ⟨nofun, by decide⟩)
  exact .spaced no_gap (.object (.last (.pair no_gap key no_gap (.spaced no_gap (.number number)
    no_gap)))) no_gap

/-- Not every number up to the largest double is taken. -/
theorem range_ends_early : ¬∀ (s : List Char) (members : List (List Char × Value)),
    ElementText (.object members) s →
      (Value.object members).Fits (fun n => n.magnitude ≤ largestDouble) 127 →
        ∀ name : String, name ∈ read (.bytes (Utf8.encode s)) ↔
          name.toList ∈ members.map Prod.fst := by
  intro all_taken
  have admitted : (Value.object [("a".toList, .number false nearlyLargest)]).Fits
      (fun n => n.magnitude ≤ largestDouble) 127 :=
    .object (List.forall_mem_singleton.mpr (.number nearlyLargest_le))
  have enabled := (all_taken _ _ nearlyLargest_written admitted "a").mpr (List.mem_singleton_self _)
  have refused : objectKeys? nearlyLargestText = none := by decide +kernel
  rw [read_of_decode (Utf8.decode_encode _), refused, mem_nameSet] at enabled
  cases enabled

end ModalHost.Applist
