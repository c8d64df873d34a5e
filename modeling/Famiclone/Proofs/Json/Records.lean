import Famiclone.Proofs.Json.Reading
import Mathlib.Data.List.Nodup

/-!
# Reading records

A record is read back from an object that gives all of its fields in order, one member after
another. The first member that is not what its field asks for decides, and what comes behind it is
not looked at.
-/
namespace Famiclone.Json

open Reader

variable {σ : Type} {fields all : List (Field σ)} {members : List (String × Value)}

/-- Fields that the keys of an object tell apart, none of which needs an escape. -/
structure WellNamed (fields : List (Field σ)) : Prop where
  distinct : (fields.map (asciiBytes ·.name)).Nodup
  plain : ∀ f ∈ fields, Plain f.name

instance (fields : List (Field σ)) : Decidable (WellNamed fields) :=
  decidable_of_iff (_ ∧ _) ⟨fun h => ⟨h.1, h.2⟩, fun h => ⟨h.1, h.2⟩⟩

/-! ## One member -/

/-- In front of a key there is a comma, unless it is the first one, and blanks. -/
theorem recordMembers_front (fuel : Nat) (first : Bool) (seen : List String) (s : σ)
    {gap : List UInt8} (hgap : Blank gap) (more : List UInt8) :
    recordMembers all (fuel + 1) first seen s (comma first ++ gap ++ ascii '"' :: more) =
      (member all seen s >>= fun p => recordMembers all fuel false p.1 p.2) more := by
  have hkey : expectToken (gap ++ ascii '"' :: more) = .ok (ascii '"', ascii '"' :: more) := by
    rw [expectToken_skipsBlanks gap _ hgap, expectToken_cons (by decide)]
  -- With the comma gone, what is left is a key and what is behind it.
  have hmember : (expectToken >>= fun c => if c = ascii '"' then pass >>= fun _ => member all seen s >>=
      fun p => recordMembers all fuel false p.1 p.2 else throw .malformed) (gap ++ ascii '"' :: more) =
      (member all seen s >>= fun p => recordMembers all fuel false p.1 p.2) more := by
    rw [bind_ok hkey, if_pos rfl, bind_ok pass_apply, List.tail_cons]
  rw [recordMembers, ← hmember]
  cases first with
  | true =>
    simp only [comma, if_true, List.nil_append]
    rw [bind_ok hkey, if_neg (by decide), bind_ok hkey]
    rfl
  | false =>
    simp only [comma, Bool.false_eq_true, if_false, List.cons_append, List.nil_append]
    rw [bind_ok (expectToken_cons (by decide)), if_neg (by decide)]
    rfl

/-- Behind the last member there are blanks at most. -/
theorem recordMembers_end (fuel : Nat) (first : Bool) (seen : List String) (s : σ)
    {text : List UInt8} (htext : Blank text) (rest : List UInt8) :
    recordMembers all (fuel + 1) first seen s (text ++ ascii '\x7d' :: rest) = .ok (s, rest) := by
  have hclose : expectToken (text ++ ascii '\x7d' :: rest) = .ok (ascii '\x7d', ascii '\x7d' :: rest) := by
    rw [expectToken_skipsBlanks text _ htext, expectToken_cons (by decide)]
  rw [recordMembers, bind_ok hclose, if_pos rfl, bind_ok pass_apply, List.tail_cons, pure_apply]

/-- A member is read as the value of its field, if that was not given before. -/
theorem member_spelled (hnamed : WellNamed all) {f : Field σ} (hf : f ∈ all) {seen : List String} (hseen : f.name ∉ seen) {s : σ} {v : Value}
    {result : Except Fault σ} (hv : ReadsAs (f.read s) v result) {space own more : List UInt8}
    (hspace : Blank space) (hown : v.Spells own) (hmore : Stops more) :
    member all seen s (asciiBytes f.name ++ ascii '"' :: ascii ':' :: (space ++ own ++ more)) =
      result.map fun s => ((f.name :: seen, s), more) := by
  rw [member, bind_ok (quoted_append false (hnamed.plain f hf)), find_key hnamed.distinct hf]
  simp only [List.contains_eq_mem, hseen, decide_false, Bool.false_eq_true, if_false]
  have hread := hv own hown space more hspace hmore
  rw [bind_ok colon_cons]
  cases result with
  | ok t => rw [bind_ok hread]; rfl
  | error fault => rw [bind_error hread]; rfl

/-! ## All members -/

/-- What becomes of a record when values are read into its fields one after another. -/
inductive Filled : List (Field σ) → List (String × Value) → σ → Except Fault σ → Prop
  | done (s : σ) : Filled [] [] s (.ok s)
  | field {f : Field σ} {v : Value} {s t : σ} {fields : List (Field σ)}
      {members : List (String × Value)} {result : Except Fault σ} (hv : ReadsAs (f.read s) v (.ok t))
      (hrest : Filled fields members t result) : Filled (f :: fields) ((f.name, v) :: members) s result
  | fault {f : Field σ} {v : Value} {s : σ} {fault : Fault} {fields : List (Field σ)}
      {members : List (String × Value)} (hv : ReadsAs (f.read s) v (.error fault)) :
      Filled (f :: fields) ((f.name, v) :: members) s (.error fault)

theorem isBlank_else {b : UInt8} (h : isBlank b = true) :
    isDigit b = false ∧ b ≠ ascii '.' ∧ isExponentMark (some b) = false := by
  have hcases : b = ascii ' ' ∨ b = ascii '\n' ∨ b = ascii '\t' ∨ b = ascii '\r' := by
    simpa [isBlank, or_assoc] using h
  rcases hcases with rfl | rfl | rfl | rfl <;> decide

/-- What stands behind a member cannot belong to a number. -/
theorem MembersSpell.stops {text : List UInt8} (h : MembersSpell false members text) (rest : List UInt8) :
    Stops (text ++ ascii '\x7d' :: rest) := by
  have hclose : ∀ b, b = ascii '\x7d' ∨ b = ascii ',' →
      isDigit b = false ∧ b ≠ ascii '.' ∧ isExponentMark (some b) = false := by
    rintro b (rfl | rfl) <;> decide
  intro b hb
  cases members with
  | nil =>
    cases text with
    | nil => exact hclose b (.inl (by simpa using hb.symm))
    | cons c text =>
      obtain rfl : c = b := by simpa using hb
      exact isBlank_else (h c (by simp))
  | cons m members =>
    obtain ⟨gap, space, own, others, _, _, _, _, rfl⟩ := h
    exact hclose b (.inr (by simpa [comma] using hb.symm))

/-- What a member of a record leads to, and what is left to read behind it. -/
theorem recordMembers_field (hnamed : WellNamed all) {f : Field σ} (hf : f ∈ all) {seen : List String}
    (hseen : f.name ∉ seen) {s : σ} {v : Value} {result : Except Fault σ} (hv : ReadsAs (f.read s) v result) {first : Bool} {text : List UInt8}
    (htext : MembersSpell first ((f.name, v) :: members) text) :
    ∃ others, MembersSpell false members others ∧ others.length < text.length ∧ ∀ fuel rest,
      recordMembers all (fuel + 1) first seen s (text ++ ascii '\x7d' :: rest) =
        result.bind fun t => recordMembers all fuel false (f.name :: seen) t (others ++ ascii '\x7d' :: rest) := by
  rw [MembersSpell] at htext
  obtain ⟨gap, space, own, others, hgap, hspace, hown, hothers, rfl⟩ := htext
  refine ⟨others, hothers, by simp; omega, fun fuel rest => ?_⟩
  have hmember := member_spelled hnamed hf hseen hv hspace hown (hothers.stops rest)
  have hfront := @recordMembers_front σ all fuel first seen s gap hgap
    (asciiBytes f.name ++ ascii '"' :: ascii ':' :: (space ++ own ++ (others ++ ascii '\x7d' :: rest)))
  simp only [utf8_quote (hnamed.plain f hf), List.append_assoc, List.cons_append, List.nil_append] at hfront hmember ⊢
  rw [hfront]
  cases result with
  | ok t => exact bind_ok hmember
  | error fault => exact bind_error hmember

theorem recordMembers_spelled (hnamed : WellNamed all) {s : σ} {result : Except Fault σ}
    (h : Filled fields members s result) (hfields : ∀ f ∈ fields, f ∈ all)
    {seen : List String} (hseen : (fields.map Field.name ++ seen).Nodup) {first : Bool} {text : List UInt8}
    (htext : MembersSpell first members text) {fuel : Nat} (hfuel : text.length < fuel)
    (rest : List UInt8) :
    recordMembers all fuel first seen s (text ++ ascii '\x7d' :: rest) = result.map (·, rest) := by
  induction h generalizing seen first text fuel with
  | done s =>
    obtain ⟨fuel, rfl⟩ := Nat.exists_eq_add_one_of_ne_zero (Nat.ne_of_gt (Nat.zero_lt_of_lt hfuel))
    exact recordMembers_end fuel first seen s htext rest
  | @field f v s t fields members result hv hrest ih =>
    obtain ⟨fuel, rfl⟩ := Nat.exists_eq_add_one_of_ne_zero (Nat.ne_of_gt (Nat.zero_lt_of_lt hfuel))
    have hf : f ∈ all := hfields f (by simp)
    have hnew : f.name ∉ seen := by simp_all
    obtain ⟨others, hothers, hshorter, hread⟩ := recordMembers_field hnamed hf hnew hv htext
    rw [hread]
    have hseen' : (fields.map Field.name ++ f.name :: seen).Nodup := List.nodup_middle.mpr hseen
    exact ih (fun g hg => hfields g (by simp [hg])) hseen' hothers (by omega)
  | @fault f v s fault fields members hv =>
    obtain ⟨fuel, rfl⟩ := Nat.exists_eq_add_one_of_ne_zero (Nat.ne_of_gt (Nat.zero_lt_of_lt hfuel))
    have hf : f ∈ all := hfields f (by simp)
    have hnew : f.name ∉ seen := by simp_all
    obtain ⟨others, _, _, hread⟩ := recordMembers_field hnamed hf hnew hv htext
    rw [hread]
    rfl

/-- A record is read from every spelling of an object with all its fields. -/
theorem record_readsAs (hnamed : WellNamed all) {start : σ} {result : Except Fault σ}
    (h : Filled all members start result) : ReadsAs (record all start) (.object members) result := by
  have hnames : (all.map Field.name ++ []).Nodup := by
    rw [List.append_nil]
    refine List.Nodup.of_map asciiBytes ?_
    rw [List.map_map]
    exact hnamed.distinct
  intro text htext blanks rest hblanks _
  rw [Value.Spells] at htext
  obtain ⟨inside, hinside, rfl⟩ := htext
  have hopen : expectToken (blanks ++ (ascii '\x7b' :: inside ++ [ascii '\x7d']) ++ rest) =
      .ok (ascii '\x7b', ascii '\x7b' :: (inside ++ ascii '\x7d' :: rest)) := by
    rw [List.append_assoc, expectToken_skipsBlanks blanks _ hblanks]
    simpa using expectToken_cons (by decide)
  rw [record, bind_ok hopen, if_neg (by decide), if_pos rfl, bind_ok pass_apply, List.tail_cons]
  exact recordMembers_spelled hnamed h (fun _ hf => hf) hnames hinside
    (by rw [List.length_append]; omega) rest

/-! ## What holds of every record that is read -/

variable {P : σ → Prop}

theorem recordItems_yields (hfields : ∀ f ∈ fields, ∀ s, P s → Yields (f.read s) P) (first : Bool) {s : σ}
    (hs : P s) : Yields (recordItems fields first s) P := by
  have hclose : Yields (pass >>= fun _ => pure s) P := .behind fun _ => .pure hs
  induction fields generalizing first s with
  | nil =>
    rw [recordItems]
    exact .behind fun c => .ite hclose (.throw _)
  | cons f fields ih =>
    have hitem : Yields (f.read s >>= fun t => recordItems fields false t) P := by
      refine .bind (hfields f (by simp) s hs) fun t ht => ?_
      exact ih (fun g hg => hfields g (by simp [hg])) false ht (.behind fun _ => .pure ht)
    rw [recordItems]
    refine .behind fun c => .ite hclose (.ite hitem (.ite ?_ (.throw _)))
    exact .behind fun _ => .behind fun c => .ite (.behind fun _ => hitem) hitem

theorem member_yields (hfields : ∀ f ∈ fields, ∀ s, P s → Yields (f.read s) P) (seen : List String) {s : σ}
    (hs : P s) : Yields (member fields seen s) (P ·.2) := by
  refine .behind fun key => ?_
  split
  · exact .behind fun _ => .behind fun _ => .pure hs
  · next f hf =>
    have hread : Yields (f.read s >>= fun t => pure (f.name :: seen, t)) (P ·.2) :=
      .bind (hfields f (List.mem_of_find?_eq_some hf) s hs) fun t ht => .pure ht
    exact .ite (.behind fun _ => .behind fun _ => hread) (.behind fun _ => hread)

theorem recordMembers_yields (hfields : ∀ f ∈ fields, ∀ s, P s → Yields (f.read s) P) (fuel : Nat)
    (first : Bool) (seen : List String) {s : σ} (hs : P s) :
    Yields (recordMembers fields fuel first seen s) P := by
  induction fuel generalizing first seen s with
  | zero => exact .throw _
  | succ fuel ih =>
    have hkey : Yields (do
        if (← expectToken) = ascii '"' then
          pass
          let next ← member fields seen s
          recordMembers fields fuel false next.1 next.2
        else throw .malformed) P := by
      refine .behind fun c => .ite (.behind fun _ => ?_) (.throw _)
      exact .bind (member_yields hfields seen hs) fun p hp => ih false p.1 hp
    rw [recordMembers]
    refine .behind fun c => .ite (.behind fun _ => .pure hs) (.ite (.ite ?_ (.behind fun _ => hkey)) hkey)
    exact .behind fun _ => hkey

/-- What holds of the values a record starts from holds of what is read, if every field keeps it. -/
theorem record_yields (hfields : ∀ f ∈ fields, ∀ s, P s → Yields (f.read s) P) {start : σ} (hs : P start) :
    Yields (record fields start) P := by
  refine .behind fun c => .ite (.behind fun _ => recordItems_yields hfields true hs) (.ite ?_ ?_)
  · exact .behind fun _ => .behind fun bytes => recordMembers_yields hfields _ true [] hs
  · exact mismatch_yields P

end Famiclone.Json
