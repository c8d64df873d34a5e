import Famiclone.Json.Record
import Famiclone.Proofs.Json.Spelling

/-!
# Reading spellings

A reader that knows nothing of what stands around a value has to find its end by itself. It does so
for every spelling, since what follows a value cannot belong to a number.
-/
namespace Famiclone.Json

variable {α β : Type}

/-! ## Running readers -/

namespace Reader

variable {r : Reader α} {k : α → Reader β} {bytes rest : List UInt8} {a : α} {fault : Fault}

theorem bind_ok (h : r bytes = .ok (a, rest)) : (r >>= k) bytes = k a rest := by
  simp [bind, StateT.bind, Except.bind, h]

theorem bind_error (h : r bytes = .error fault) : (r >>= k) bytes = .error fault := by
  simp [bind, StateT.bind, Except.bind, h]

/-- What comes out of two actions comes out of the first one and goes through the second. -/
theorem of_bind_ok {b : β} (h : (r >>= k) bytes = .ok (b, rest)) :
    ∃ a between, r bytes = .ok (a, between) ∧ k a between = .ok (b, rest) := by
  cases hr : r bytes with
  | error fault => rw [bind_error hr] at h; cases h
  | ok p => exact ⟨p.1, p.2, rfl, by rwa [bind_ok hr] at h⟩

@[simp] theorem pure_apply : (pure a : Reader α) bytes = .ok (a, bytes) := rfl

@[simp] theorem pass_apply : pass bytes = .ok ((), bytes.tail) := rfl

@[simp] theorem peek_apply : peek bytes = .ok (bytes.head?, bytes) := rfl

end Reader

open Reader

/-- Whatever text it is given, a reader makes only such values of it. -/
def Yields (r : Reader α) (P : α → Prop) : Prop := ∀ bytes a rest, r bytes = .ok (a, rest) → P a

namespace Yields

variable {r q : Reader α} {P : α → Prop} {Q : β → Prop}

theorem pure {a : α} (h : P a) : Yields (pure a) P := by
  intro bytes b rest hb
  cases hb
  exact h

theorem throw (fault : Fault) : Yields (throw fault) P := by
  intro bytes a rest h
  cases h

theorem bind {k : α → Reader β} (hr : Yields r P) (hk : ∀ a, P a → Yields (k a) Q) :
    Yields (r >>= k) Q := by
  intro bytes b rest h
  obtain ⟨a, between, ha, hb⟩ := of_bind_ok h
  exact hk a (hr _ _ _ ha) _ _ _ hb

/-- What comes first does not matter. -/
theorem behind {k : α → Reader β} (hk : ∀ a, Yields (k a) Q) : Yields (r >>= k) Q :=
  bind (P := fun _ => True) (fun _ _ _ _ => trivial) fun a _ => hk a

theorem ite {c : Prop} [Decidable c] (hr : Yields r P) (hq : Yields q P) :
    Yields (if c then r else q) P := by
  split
  · exact hr
  · exact hq

end Yields

/-- A whole text is read as its value is. -/
theorem Yields.of_readAll {r : Reader α} {P : α → Prop} (hr : Yields r P) {text : List UInt8} {a : α}
    (h : readAll r text = .ok a) : P a := by
  cases hread : r text with
  | error fault =>
    rw [readAll, hread] at h
    cases h
  | ok p =>
    rw [readAll, hread] at h
    change (if (p.2.dropWhile isBlank).isEmpty then Except.ok p.1 else .error Fault.malformed) = .ok a at h
    split at h
    · cases h
      exact hr text p.1 p.2 hread
    · cases h

/-! ## Blanks in front -/

/-- A reader that does not mind blanks in front of a value. -/
def SkipsBlanks (r : Reader α) : Prop := ∀ blanks bytes, Blank blanks → r (blanks ++ bytes) = r bytes

theorem token_skipsBlanks : SkipsBlanks token := by
  intro blanks bytes hblanks
  change Except.ok (((blanks ++ bytes).dropWhile isBlank).head?, (blanks ++ bytes).dropWhile isBlank) = _
  rw [List.dropWhile_append_of_pos hblanks]
  rfl

theorem SkipsBlanks.bind {r : Reader α} (h : SkipsBlanks r) (k : α → Reader β) :
    SkipsBlanks (r >>= k) := by
  intro blanks bytes hblanks
  cases hr : r bytes with
  | error fault => rw [bind_error hr, bind_error (h blanks bytes hblanks ▸ hr)]
  | ok p => rw [bind_ok hr, bind_ok (h blanks bytes hblanks ▸ hr)]

theorem expectToken_skipsBlanks : SkipsBlanks expectToken := token_skipsBlanks.bind _

/-! ## Tokens -/

variable {rest : List UInt8} {b : UInt8}

theorem token_cons (hb : isBlank b = false) : token (b :: rest) = .ok (some b, b :: rest) := by
  change Except.ok (((b :: rest).dropWhile isBlank).head?, (b :: rest).dropWhile isBlank) = _
  rw [List.dropWhile_cons_of_neg (by simp [hb])]
  rfl

theorem expectToken_cons (hb : isBlank b = false) : expectToken (b :: rest) = .ok (b, b :: rest) :=
  bind_ok (token_cons hb)

theorem token_word {word : String} (hfirst : (asciiBytes word).head? = some b) (hb : isBlank b = false) :
    token (asciiBytes word ++ rest) = .ok (some b, asciiBytes word ++ rest) := by
  obtain ⟨tail, htail⟩ := List.head?_eq_some_iff.mp hfirst
  rw [htail, List.cons_append, token_cons hb]

theorem expectToken_word {word : String} (hfirst : (asciiBytes word).head? = some b)
    (hb : isBlank b = false) :
    expectToken (asciiBytes word ++ rest) = .ok (b, asciiBytes word ++ rest) :=
  bind_ok (token_word hfirst hb)

theorem literal_append (word : List UInt8) : literal word (word ++ rest) = .ok ((), rest) := by
  induction word with
  | nil => rfl
  | cons b word ih =>
    rw [literal, bind_ok peek_apply]
    simp only [List.cons_append, List.head?_cons, if_true]
    rw [bind_ok pass_apply, List.tail_cons, ih]

theorem keyword_append (word : String) : keyword word (asciiBytes word ++ rest) = .ok ((), rest) :=
  literal_append _

theorem colon_cons : colon (ascii ':' :: rest) = .ok ((), rest) := by
  rw [colon, bind_ok (expectToken_cons (by decide)), if_pos rfl, pass_apply, List.tail_cons]

/-! ## Strings -/

/-- A word that a string holds as it is. -/
structure Plain (word : String) : Prop where
  ascii : ∀ c ∈ word.toList, c.val.toNat ≤ 127
  unescaped : ∀ b ∈ asciiBytes word, b ≠ Json.ascii '"' ∧ b ≠ Json.ascii '\\' ∧ ¬ b < 0x20

-- The characters of the word are looked at, and not all that there are.
instance (word : String) : Decidable (Plain word) :=
  letI := List.decidableBAll (fun c : Char => c.val.toNat ≤ 127) word.toList
  letI := List.decidableBAll
    (fun b : UInt8 => b ≠ Json.ascii '"' ∧ b ≠ Json.ascii '\\' ∧ ¬ b < 0x20) (asciiBytes word)
  decidable_of_iff (_ ∧ _) ⟨fun h => ⟨h.1, h.2⟩, fun h => ⟨h.1, h.2⟩⟩

theorem quotedFrom_append (skipping : Bool) {word : List UInt8} (sofar rest : List UInt8)
    (hword : ∀ b ∈ word, b ≠ ascii '"' ∧ b ≠ ascii '\\' ∧ ¬ b < 0x20) {fuel : Nat}
    (hfuel : word.length < fuel) :
    quotedFrom skipping fuel sofar (word ++ ascii '"' :: rest) = .ok (sofar.reverse ++ word, rest) := by
  induction word generalizing fuel sofar with
  | nil =>
    obtain ⟨fuel, rfl⟩ := Nat.exists_eq_add_one_of_ne_zero (Nat.ne_of_gt hfuel)
    simp [quotedFrom]
  | cons b word ih =>
    obtain ⟨fuel, rfl⟩ := Nat.exists_eq_add_one_of_ne_zero (Nat.ne_of_gt (Nat.zero_lt_of_lt hfuel))
    obtain ⟨hquote, hescape, hcontrol⟩ := hword b (by simp)
    have hrest := ih (b :: sofar) (fun c hc => hword c (by simp [hc])) (Nat.lt_of_succ_lt_succ hfuel)
    rw [List.cons_append, quotedFrom, if_neg hquote, if_neg hcontrol, if_neg hescape]
    simpa using hrest

theorem quoted_append (skipping : Bool) {word : String} (hword : Plain word) :
    quoted skipping (asciiBytes word ++ ascii '"' :: rest) = .ok (asciiBytes word, rest) := by
  have hfuel : (asciiBytes word).length < (asciiBytes word ++ ascii '"' :: rest).length + 1 := by
    rw [List.length_append, List.length_cons]
    omega
  have h := quotedFrom_append skipping [] rest hword.unescaped hfuel
  simpa [quoted] using h

/-- The bytes of a plain word in quotes. -/
theorem utf8_quote {word : String} (hword : Plain word) :
    utf8 (quote word) = ascii '"' :: asciiBytes word ++ [ascii '"'] := by
  have hmark : utf8 "\"" = [ascii '"'] := by decide +kernel
  simp [quote, hmark, utf8_of_ascii hword.ascii]

/-! ## Values -/

/-- Nothing behind a value can belong to a number. -/
def Stops (rest : List UInt8) : Prop :=
  ∀ b ∈ rest.head?, isDigit b = false ∧ b ≠ ascii '.' ∧ isExponentMark (some b) = false

/-- What a reader makes of each spelling of a value, wherever it stands. -/
def ReadsAs (r : Reader α) (v : Value) (result : Except Fault α) : Prop :=
  ∀ text, v.Spells text → ∀ blanks rest, Blank blanks → Stops rest →
    r (blanks ++ text ++ rest) = result.map (·, rest)

/-- What is made of a value that has been read. -/
theorem ReadsAs.map {r : Reader α} {v : Value} {result : Except Fault α} (h : ReadsAs r v result)
    (g : α → β) : ReadsAs (do return g (← r)) v (result.map g) := by
  intro text htext blanks rest hblanks hrest
  have hr := h text htext blanks rest hblanks hrest
  cases result with
  | ok a => exact bind_ok hr
  | error fault => exact bind_error hr

section Atoms

variable {r : Reader α} {result : Except Fault α}

/-- A value without parts has one spelling only. -/
theorem ReadsAs.atom {v : Value} (hv : ∀ members, v ≠ .object members) (hr : SkipsBlanks r)
    (h : ∀ rest, Stops rest → r (utf8 v.atom ++ rest) = result.map (·, rest)) : ReadsAs r v result := by
  intro text htext blanks rest hblanks hrest
  rw [Value.Spells.eq_2 _ _ hv] at htext
  rw [htext, List.append_assoc, hr _ _ hblanks, h rest hrest]

theorem ReadsAs.null (hr : SkipsBlanks r)
    (h : ∀ rest, r (asciiBytes "null" ++ rest) = result.map (·, rest)) : ReadsAs r .null result := by
  have hword : utf8 Value.null.atom = asciiBytes "null" := by decide +kernel
  exact .atom (by simp) hr fun rest _ => hword ▸ h rest

theorem ReadsAs.string {word : String} (hword : Plain word) (hr : SkipsBlanks r)
    (h : ∀ rest, Stops rest →
      r (ascii '"' :: (asciiBytes word ++ ascii '"' :: rest)) = result.map (·, rest)) :
    ReadsAs r (.string word) result := by
  refine .atom (by simp) hr fun rest hrest => ?_
  simpa [Value.atom, utf8_quote hword] using h rest hrest

end Atoms

/-! ## Truth values, and words -/

theorem bool_readsAs (b : Bool) : ReadsAs bool (.bool b) (.ok b) := by
  refine .atom (by simp) (expectToken_skipsBlanks.bind _) fun rest _ => ?_
  cases b with
  | true =>
    have hword : utf8 (Value.bool true).atom = asciiBytes "true" := by decide +kernel
    have hfirst : (asciiBytes "true").head? = some (ascii 't') := by decide +kernel
    rw [hword, bool, bind_ok (expectToken_word hfirst (by decide)), if_pos rfl]
    exact bind_ok (keyword_append "true")
  | false =>
    have hword : utf8 (Value.bool false).atom = asciiBytes "false" := by decide +kernel
    have hfirst : (asciiBytes "false").head? = some (ascii 'f') := by decide +kernel
    rw [hword, bool, bind_ok (expectToken_word hfirst (by decide)), if_neg (by decide), if_pos rfl]
    exact bind_ok (keyword_append "false")

/-- What a list holds is found in it by its key, if no two have the same one. -/
theorem find_key {key : α → List UInt8} {all : List α} (hdistinct : (all.map key).Nodup) {a : α}
    (h : a ∈ all) : (all.find? fun x => key x == key a) = some a := by
  induction all with
  | nil => cases h
  | cons x all ih =>
    obtain ⟨hx, hdistinct⟩ := List.nodup_cons.mp hdistinct
    cases List.mem_cons.mp h with
    | inl h => simp [h]
    | inr h =>
      have hne : key x ≠ key a := fun e => hx (e ▸ List.mem_map_of_mem h)
      simp [hne, ih hdistinct h]

/-- A word of a choice is read as what it names. -/
theorem choice_readsAs {choices : List (String × α)} {name : String} {a : α}
    (hdistinct : (choices.map fun c => asciiBytes c.1).Nodup) (hname : Plain name)
    (h : (name, a) ∈ choices) : ReadsAs (choice choices) (.string name) (.ok a) := by
  refine .string hname (expectToken_skipsBlanks.bind _) fun rest _ => ?_
  have hchosen : chosen choices (asciiBytes name) = pure a := by
    rw [chosen, find_key hdistinct h]
  rw [choice, bind_ok (expectToken_cons (by decide)), if_pos rfl, bind_ok pass_apply, List.tail_cons,
    bind_ok (quoted_append false hname), hchosen]
  rfl

theorem optional_null (r : Reader α) : ReadsAs (optional r) .null (.ok none) := by
  refine .null (token_skipsBlanks.bind _) fun rest => ?_
  have hfirst : (asciiBytes "null").head? = some (ascii 'n') := by decide +kernel
  rw [optional, bind_ok (token_word hfirst (by decide)), if_pos rfl]
  exact bind_ok (keyword_append "null")

theorem optional_string {r : Reader α} {name : String} {a : α} (hname : Plain name)
    (h : ReadsAs r (.string name) (.ok a)) : ReadsAs (optional r) (.string name) (.ok (some a)) := by
  refine .string hname (token_skipsBlanks.bind _) fun rest hrest => ?_
  have hspells : (Value.string name).Spells (ascii '"' :: asciiBytes name ++ [ascii '"']) := by
    simp [Value.Spells, Value.atom, utf8_quote hname]
  have hr := h _ hspells [] rest Blank.nil hrest
  rw [List.nil_append, List.append_assoc, List.cons_append, List.singleton_append] at hr
  rw [optional, bind_ok (token_cons (by decide)), if_neg (by decide)]
  exact bind_ok hr

/-- A value of another kind is refused, whatever it is. -/
theorem mismatch_yields (P : α → Prop) : Yields mismatch P := by
  have hend : Yields (throw .mismatch : Reader α) P := .throw _
  have hpast {β : Type} (r : Reader β) : Yields (r >>= fun _ => throw .mismatch) P := .behind fun _ => hend
  rw [mismatch]
  refine .behind fun c => ?_
  refine .ite (hpast _) (.ite (hpast _) (.ite (hpast _) (.ite ?sign (.ite (hpast _) (.ite ?quote ?other)))))
  case sign => exact .behind fun _ => hpast _
  case quote => exact .behind fun _ => hpast _
  case other => exact .ite (.behind fun _ => hend) hend

/-- Nothing is not what is asked for. -/
theorem mismatch_null (rest : List UInt8) :
    (mismatch : Reader α) (asciiBytes "null" ++ rest) = .error .mismatch := by
  have hword : (asciiBytes "null").head? = some (ascii 'n') := by decide +kernel
  have hfirst : (asciiBytes "null" ++ rest).head? = some (ascii 'n') := by
    rw [List.head?_append, hword]
    rfl
  rw [mismatch, bind_ok peek_apply, hfirst, if_pos rfl]
  exact bind_ok (keyword_append "null")

end Famiclone.Json
