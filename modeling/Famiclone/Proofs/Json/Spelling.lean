import Famiclone.Json.Printer
import Famiclone.Json.Reader

/-!
# Spellings of a value

A value has many texts: between its parts there may be blanks. What is written without blanks and
what is written over several lines are two of them, and whoever reads a value has to take them all.
-/
namespace Famiclone.Json

/-! ## The bytes of a text -/

/-- The bytes of a text in UTF-8. -/
def utf8 (text : String) : List UInt8 := text.toList.flatMap String.utf8EncodeChar

@[simp] theorem utf8_append (s t : String) : utf8 (s ++ t) = utf8 s ++ utf8 t := by
  simp [utf8]

private theorem listLoop_eq (bytes : ByteArray) (place : Nat) (sofar : List UInt8) :
    ByteArray.toList.loop bytes place sofar = sofar.reverse ++ bytes.data.toList.drop place := by
  induction place, sofar using ByteArray.toList.loop.induct bytes with
  | case1 place sofar inside ih =>
    have hlen : place < bytes.data.toList.length := by simpa using inside
    have hbyte : bytes.get! place = bytes.data.toList[place] := getElem!_pos bytes.data place inside
    rw [ByteArray.toList.loop, if_pos inside, ih, hbyte, List.drop_eq_getElem_cons hlen]
    simp
  | case2 place sofar outside =>
    have hlen : bytes.data.toList.length ≤ place := by simpa using outside
    rw [ByteArray.toList.loop, if_neg outside, List.drop_eq_nil_of_le hlen, List.append_nil]

theorem toUTF8_toList (text : String) : text.toUTF8.toList = utf8 text := by
  have hdata : text.toUTF8.data.toList = utf8 text := by
    have : text.toUTF8 = (utf8 text).toByteArray := (String.utf8Encode_toList).symm
    rw [this, List.toList_data_toByteArray]
  rw [ByteArray.toList, listLoop_eq, hdata]
  simp

/-- Characters that take one byte each are their own bytes. -/
theorem utf8_of_ascii {text : String} (h : ∀ c ∈ text.toList, c.val.toNat ≤ 127) :
    utf8 text = asciiBytes text := by
  have hone : ∀ c ∈ text.toList, String.utf8EncodeChar c = [ascii c] := by
    intro c hc
    rw [String.utf8EncodeChar.eq_1, if_pos (h c hc)]
    rfl
  rw [utf8, asciiBytes, List.flatMap_def, List.map_congr_left hone, ← List.flatMap_def]
  exact List.map_eq_flatMap.symm

/-! ## Blanks -/

/-- Bytes that part nothing but the parts of a text. -/
def Blank (bytes : List UInt8) : Prop := ∀ b ∈ bytes, isBlank b = true

instance (bytes : List UInt8) : Decidable (Blank bytes) := inferInstanceAs (Decidable (∀ b ∈ bytes, _))

@[simp] theorem Blank.nil : Blank [] := by simp [Blank]

theorem Blank.empty : Blank (utf8 "") := by decide +kernel

theorem Blank.space : Blank (utf8 " ") := by decide +kernel

theorem Blank.indentation (level : Nat) : Blank (utf8 (indentation level)) := by
  have hchar : ∀ c ∈ (Json.indentation level).toList, c = '\n' ∨ c = ' ' := by
    rw [Json.indentation]
    generalize 2 * level = n
    induction n with
    | zero => simp [String.pushn_eq_repeat_push, Nat.repeat]
    | succ n ih =>
      rw [String.pushn_eq_repeat_push, Nat.repeat, ← String.pushn_eq_repeat_push]
      intro c hc
      rw [String.toList_push, List.mem_append] at hc
      cases hc with
      | inl hc => exact ih c hc
      | inr hc => simp_all
  intro b hb
  obtain ⟨c, hc, hb⟩ := List.mem_flatMap.mp hb
  rcases hchar c hc with rfl | rfl <;> simp_all [String.utf8EncodeChar.eq_1] <;> decide

/-! ## Values -/

/-- What stands in front of a member: nothing for the first one, a comma for all others. -/
def comma (first : Bool) : List UInt8 := if first then [] else [ascii ',']

mutual

/-- A text is one for a value. -/
def Value.Spells : Value → List UInt8 → Prop
  | .object members, text =>
    ∃ inside, MembersSpell true members inside ∧
      text = ascii '\x7b' :: inside ++ [ascii '\x7d']
  | v, text => text = utf8 v.atom

/-- A text is one for members of an object, blanks behind them included. -/
def MembersSpell (first : Bool) : List (String × Value) → List UInt8 → Prop
  | [], text => Blank text
  | (name, v) :: rest, text =>
    ∃ gap space own others, Blank gap ∧ Blank space ∧ v.Spells own ∧ MembersSpell false rest others ∧
      text = comma first ++ gap ++ utf8 (quote name) ++ ascii ':' :: space ++ own ++ others

end

/-- Texts of members with commas between them; one in front as well, unless they are the first. -/
def joined (first : Bool) (texts : List String) : List UInt8 :=
  if first then utf8 (",".intercalate texts) else texts.flatMap fun text => comma false ++ utf8 text

@[simp] theorem joined_nil (first : Bool) : joined first [] = [] := by
  cases first <;> decide +kernel

theorem joined_cons (first : Bool) (text : String) (texts : List String) :
    joined first (text :: texts) = comma first ++ utf8 text ++ joined false texts := by
  have hcomma : utf8 "," = comma false := by decide +kernel
  cases first with
  | false => simp [joined]
  | true =>
    simp only [joined, comma, if_true, List.nil_append, Bool.false_eq_true, if_false]
    induction texts generalizing text with
    | nil => simp
    | cons next texts ih =>
      rw [String.intercalate_cons_cons, utf8_append, utf8_append, ih, hcomma]
      simp [comma]

variable {first : Bool} {name : String} {v : Value} {members : List (String × Value)}

/-- A member in front of others. -/
theorem MembersSpell.cons {gap space own : String} {others : List String} {behind : List UInt8}
    (hgap : Blank (utf8 gap)) (hspace : Blank (utf8 space)) (hown : v.Spells (utf8 own))
    (hothers : MembersSpell false members (joined false others ++ behind)) :
    MembersSpell first ((name, v) :: members)
      (joined first ((gap ++ quote name ++ ":" ++ space ++ own) :: others) ++ behind) := by
  have hcolon : utf8 ":" = [ascii ':'] := by decide +kernel
  rw [MembersSpell]
  refine ⟨utf8 gap, utf8 space, utf8 own, _, hgap, hspace, hown, hothers, ?_⟩
  simp [joined_cons, hcolon]

theorem Value.spells_object {inside written : String} (hwritten : written = "\x7b" ++ inside ++ "\x7d")
    (h : MembersSpell true members (utf8 inside)) : (Value.object members).Spells (utf8 written) := by
  have hopening : utf8 "\x7b" = [ascii '\x7b'] := by decide +kernel
  have hclosing : utf8 "\x7d" = [ascii '\x7d'] := by decide +kernel
  rw [Value.Spells, hwritten]
  exact ⟨_, h, by simp [hopening, hclosing]⟩

mutual

/-- What is written without blanks is a spelling of the value. -/
theorem Value.compact_spells : (v : Value) → v.Spells (utf8 v.compact)
  | .object members => by
    have h := compactMembers_spell true members
    exact Value.spells_object (Value.compact.eq_1 members) h
  | .null | .bool _ | .number _ | .string _ => by simp only [Value.Spells, Value.compact]

theorem compactMembers_spell (first : Bool) :
    (members : List (String × Value)) → MembersSpell first members (joined first (compactMembers members))
  | [] => by simp [MembersSpell, compactMembers]
  | (name, v) :: members => by
    have hothers : MembersSpell false members (joined false (compactMembers members) ++ []) := by
      simpa using compactMembers_spell false members
    have h : MembersSpell first ((name, v) :: members)
        (joined first (("" ++ quote name ++ ":" ++ "" ++ v.compact) :: compactMembers members) ++ []) :=
      .cons Blank.empty Blank.empty v.compact_spells hothers
    simpa [compactMembers] using h

end

mutual

/-- What is written over several lines is a spelling of the value. -/
theorem Value.pretty_spells : (v : Value) → (level : Nat) → v.Spells (utf8 (v.pretty level))
  | .object [], level => by
    have h : MembersSpell true [] (utf8 "") := by simpa [MembersSpell] using Blank.empty
    exact Value.spells_object (by rw [Value.pretty]; decide) h
  | .object (m :: members), level => by
    have h := prettyMembers_spell (m :: members) true level
    rw [joined, if_pos rfl, ← utf8_append] at h
    exact Value.spells_object (by simp [Value.pretty, String.append_assoc]) h
  | .null, _ | .bool _, _ | .number _, _ | .string _, _ => by simp only [Value.Spells, Value.pretty]

/-- The members are those of an object one level further out. -/
theorem prettyMembers_spell :
    (members : List (String × Value)) → (first : Bool) → (level : Nat) → 
      MembersSpell first members
        (joined first (prettyMembers (level + 1) members) ++ utf8 (indentation level))
  | [], _, level => by simpa [MembersSpell, prettyMembers] using Blank.indentation level
  | (name, v) :: members, first, level => by
    have hothers := prettyMembers_spell members false level
    have hsep : ": " = ":" ++ " " := by decide
    rw [prettyMembers, hsep, ← String.append_assoc]
    exact .cons (Blank.indentation _) Blank.space (v.pretty_spells (level + 1)) hothers

end

end Famiclone.Json
