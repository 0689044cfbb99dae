import OpcuaLight.Lib.Doubles
import OpcuaLight.Lib.JsonText

/-!
# Indented JSON texts

`JSON.stringify(v, null, gap)`: each item and each field on a line of its own, `gap` blanks deeper than
the brackets around it. A canonical value is read from this text too (`parse_pretty`).
-/

namespace Json

open Binary (binary64)
open Numerals (Ends numberText)

/-- A new line with blanks in front. -/
def indent (n : Nat) : List Char := '\n' :: List.replicate n ' '

mutual
/-- The text of a value whose line starts with `depth` blanks. -/
def prettyText (gap depth : Nat) : Json → List Char
  | arr (v :: items) =>
      '[' :: (indent (depth + gap) ++ (prettyText gap (depth + gap) v ++ prettyItems gap depth items))
  | obj ((k, v) :: fields) =>
      '{' :: (indent (depth + gap) ++ (quote k ++ ':' :: ' ' ::
        (prettyText gap (depth + gap) v ++ prettyFields gap depth fields)))
  | v => text v

/-- The items behind the first one. -/
def prettyItems (gap depth : Nat) : List Json → List Char
  | [] => indent depth ++ [']']
  | v :: items =>
      ',' :: (indent (depth + gap) ++ (prettyText gap (depth + gap) v ++ prettyItems gap depth items))

/-- The fields behind the first one. -/
def prettyFields (gap depth : Nat) : List (String × Json) → List Char
  | [] => indent depth ++ ['}']
  | (k, v) :: fields =>
      ',' :: (indent (depth + gap) ++ (quote k ++ ':' :: ' ' ::
        (prettyText gap (depth + gap) v ++ prettyFields gap depth fields)))
end

/-- `JSON.stringify(v, null, gap)`. -/
def pretty (gap : Nat) (v : Json) : String := String.ofList (prettyText gap 0 v)

/-! ## Blanks are skipped -/

theorem skip_indent (n : Nat) (cs : List Char) : skip (indent n ++ cs) = skip cs := by
  have hblanks : ∀ n, skip (List.replicate n ' ' ++ cs) = skip cs := by
    intro n
    induction n with
    | zero => rfl
    | succ n ih =>
        rw [List.replicate_succ, List.cons_append, skip, List.dropWhile_cons_of_pos (by decide)]
        exact ih
  rw [indent, List.cons_append, skip, List.dropWhile_cons_of_pos (by decide)]
  exact hblanks n

theorem readValue_congr {cs ds : List Char} (h : skip cs = skip ds) (fuel : Nat) :
    readValue fuel cs = readValue fuel ds := by
  cases fuel with
  | zero => rfl
  | succ fuel => rw [readValue, readValue, h]

theorem readKey_congr {cs ds : List Char} (h : skip cs = skip ds) : readKey cs = readKey ds := by
  rw [readKey, readKey, h]

theorem skip_blank (cs : List Char) : skip (' ' :: cs) = skip cs := by
  rw [skip, List.dropWhile_cons_of_pos (by decide)]
  rfl

/-! ## Reading -/

theorem ends_prettyItems (gap depth : Nat) (items : List Json) (rest : List Char) :
    Ends (prettyItems gap depth items ++ rest) := by
  cases items <;> exact Numerals.ends_cons _ (by decide)

theorem ends_prettyFields (gap depth : Nat) (fields : List (String × Json)) (rest : List Char) :
    Ends (prettyFields gap depth fields ++ rest) := by
  cases fields <;> exact Numerals.ends_cons _ (by decide)

theorem prettyItems_length_pos (gap depth : Nat) (items : List Json) :
    0 < (prettyItems gap depth items).length := by
  cases items <;> exact Nat.succ_pos _

theorem prettyFields_length_pos (gap depth : Nat) (fields : List (String × Json)) :
    0 < (prettyFields gap depth fields).length := by
  cases fields <;> exact Nat.succ_pos _

/-- The text starts as the one on one line does. -/
theorem prettyText_head {v : Json} (h : Canonical v) (gap depth : Nat) :
    ∃ c cs, prettyText gap depth v = c :: cs ∧ isJsonSpace c = false ∧ c ≠ ']' := by
  match v, h with
  | null, h | bool _, h | num _, h | str _, h | arr [], h | obj [], h =>
      simp only [prettyText]
      exact text_head h
  | arr (v :: items), _ => exact ⟨'[', _, by rw [prettyText], by decide⟩
  | obj ((k, v) :: fields), _ => exact ⟨'{', _, by rw [prettyText], by decide⟩

theorem prettyText_length_pos {v : Json} (h : Canonical v) (gap depth : Nat) :
    0 < (prettyText gap depth v).length := by
  obtain ⟨c, cs, hcs, -⟩ := prettyText_head h gap depth
  rw [hcs]
  exact Nat.succ_pos _

/-- An item is read from behind the blanks in front of it. -/
theorem readValue_indent (n fuel : Nat) (cs : List Char) :
    readValue fuel (indent n ++ cs) = readValue fuel cs := readValue_congr (skip_indent n cs) fuel

theorem readKey_indent (n : Nat) (k : String) (rest : List Char) :
    readKey (indent n ++ (quote k ++ ':' :: rest)) = some (k, rest) := by
  rw [readKey_congr (skip_indent n _), readKey_quote]

theorem skip_prettyText {v : Json} (h : Canonical v) (gap depth n : Nat) (rest : List Char) :
    ¬(skip (indent n ++ (prettyText gap depth v ++ rest))).head? = some ']' := by
  obtain ⟨c, cs, hcs, hspace, hbracket⟩ := prettyText_head h gap depth
  rw [skip_indent, hcs, List.cons_append, skip_of_notSpace hspace]
  exact fun heq => hbracket (Option.some.inj heq)

theorem readItems_close (fuel n : Nat) (rest : List Char) :
    readItems (fuel + 1) (indent n ++ ']' :: rest) = some ([], rest) := by
  rw [readItems, skip_indent, skip_of_notSpace (by decide)]
  rfl

theorem readFields_close (fuel n : Nat) (rest : List Char) :
    readFields (fuel + 1) (indent n ++ '}' :: rest) = some ([], rest) := by
  rw [readFields, skip_indent, skip_of_notSpace (by decide)]
  rfl

mutual
/-- **A value is read from its indented text**, whatever follows it. -/
theorem readValue_prettyText (gap : Nat) : ∀ (v : Json) (depth : Nat) {fuel : Nat} {rest : List Char},
    Canonical v → (prettyText gap depth v).length ≤ fuel → Ends rest →
      readValue fuel (prettyText gap depth v ++ rest) = some (v, rest)
  | null, depth, fuel, rest, h, hfuel, hrest | bool _, depth, fuel, rest, h, hfuel, hrest
  | num _, depth, fuel, rest, h, hfuel, hrest | str _, depth, fuel, rest, h, hfuel, hrest
  | arr [], depth, fuel, rest, h, hfuel, hrest | obj [], depth, fuel, rest, h, hfuel, hrest => by
      simp only [prettyText] at hfuel ⊢
      exact readValue_text _ h hfuel hrest
  | arr (v :: items), depth, fuel + 1, rest, h, hfuel, _ => by
      rw [prettyText, List.length_cons, List.length_append, List.length_append] at hfuel
      have hlast := prettyItems_length_pos gap depth items
      have hpos := prettyText_length_pos h.1 gap (depth + gap)
      have hv : readValue fuel (prettyText gap (depth + gap) v ++ (prettyItems gap depth items ++ rest)) =
          some (v, prettyItems gap depth items ++ rest) :=
        readValue_prettyText gap v _ h.1 (by omega) (ends_prettyItems gap depth items rest)
      have hitems : readItems fuel (prettyItems gap depth items ++ rest) = some (items, rest) :=
        readItems_prettyItems gap items depth h.2 (by omega)
      rw [prettyText, List.cons_append, List.append_assoc, List.append_assoc, readValue_bracket,
        if_neg (skip_prettyText h.1 gap _ _ _), readValue_indent, hv, Option.bind_some, hitems]
      rfl
  | obj ((k, v) :: fields), depth, fuel + 1, rest, h, hfuel, _ => by
      rw [prettyText, List.length_cons, List.length_append, List.length_append, List.length_cons,
        List.length_cons, List.length_append] at hfuel
      have hlast := prettyFields_length_pos gap depth fields
      have hpos := prettyText_length_pos h.2.1 gap (depth + gap)
      have hv : readValue fuel (prettyText gap (depth + gap) v ++ (prettyFields gap depth fields ++ rest)) =
          some (v, prettyFields gap depth fields ++ rest) :=
        readValue_prettyText gap v _ h.2.1 (by omega) (ends_prettyFields gap depth fields rest)
      have hfields : readFields fuel (prettyFields gap depth fields ++ rest) = some (fields, rest) :=
        readFields_prettyFields gap fields depth h.2.2 (by omega)
      have hne : ¬(skip (indent (depth + gap) ++ (quote k ++ ':' :: ' ' ::
          (prettyText gap (depth + gap) v ++ (prettyFields gap depth fields ++ rest))))).head? = some '}' := by
        rw [skip_indent, quote, List.cons_append, skip_of_notSpace (by decide)]
        exact fun heq => absurd (Option.some.inj heq) (by decide)
      rw [prettyText, List.cons_append, List.append_assoc, List.append_assoc, List.cons_append,
        List.cons_append, List.append_assoc, readValue_brace, if_neg hne, readKey_indent, Option.bind_some,
        readValue_congr (skip_blank _), hv, Option.bind_some, hfields, Option.map_some, ofFields_of_nodup h.1]
  | arr (_ :: _), depth, 0, rest, h, hfuel, _ =>
      absurd (prettyText_length_pos h gap depth) (Nat.not_lt.mpr hfuel)
  | obj (_ :: _), depth, 0, rest, h, hfuel, _ =>
      absurd (prettyText_length_pos h gap depth) (Nat.not_lt.mpr hfuel)

theorem readItems_prettyItems (gap : Nat) : ∀ (items : List Json) (depth : Nat) {fuel : Nat}
    {rest : List Char}, CanonicalItems items → (prettyItems gap depth items).length ≤ fuel →
      readItems fuel (prettyItems gap depth items ++ rest) = some (items, rest)
  | [], depth, fuel + 1, rest, _, _ => by
      rw [prettyItems, List.append_assoc, List.singleton_append, readItems_close]
  | v :: items, depth, fuel + 1, rest, h, hfuel => by
      rw [prettyItems, List.length_cons, List.length_append, List.length_append] at hfuel
      have hlast := prettyItems_length_pos gap depth items
      have hv : readValue fuel (prettyText gap (depth + gap) v ++ (prettyItems gap depth items ++ rest)) =
          some (v, prettyItems gap depth items ++ rest) :=
        readValue_prettyText gap v _ h.1 (by omega) (ends_prettyItems gap depth items rest)
      have hitems : readItems fuel (prettyItems gap depth items ++ rest) = some (items, rest) :=
        readItems_prettyItems gap items depth h.2 (by omega)
      rw [prettyItems, List.cons_append, List.append_assoc, List.append_assoc, readItems,
        skip_of_notSpace (by decide)]
      show (readValue fuel _).bind _ = _
      rw [readValue_indent, hv, Option.bind_some, hitems]
      rfl
  | items, depth, 0, rest, _, hfuel =>
      absurd (prettyItems_length_pos gap depth items) (Nat.not_lt.mpr hfuel)

theorem readFields_prettyFields (gap : Nat) : ∀ (fields : List (String × Json)) (depth : Nat) {fuel : Nat}
    {rest : List Char}, CanonicalFields fields → (prettyFields gap depth fields).length ≤ fuel →
      readFields fuel (prettyFields gap depth fields ++ rest) = some (fields, rest)
  | [], depth, fuel + 1, rest, _, _ => by
      rw [prettyFields, List.append_assoc, List.singleton_append, readFields_close]
  | (k, v) :: fields, depth, fuel + 1, rest, h, hfuel => by
      rw [prettyFields, List.length_cons, List.length_append, List.length_append, List.length_cons,
        List.length_cons, List.length_append] at hfuel
      have hlast := prettyFields_length_pos gap depth fields
      have hv : readValue fuel (prettyText gap (depth + gap) v ++ (prettyFields gap depth fields ++ rest)) =
          some (v, prettyFields gap depth fields ++ rest) :=
        readValue_prettyText gap v _ h.1 (by omega) (ends_prettyFields gap depth fields rest)
      have hfields : readFields fuel (prettyFields gap depth fields ++ rest) = some (fields, rest) :=
        readFields_prettyFields gap fields depth h.2 (by omega)
      rw [prettyFields, List.cons_append, List.append_assoc, List.append_assoc, List.cons_append,
        List.cons_append, List.append_assoc, readFields, skip_of_notSpace (by decide)]
      show (readKey _).bind _ = _
      rw [readKey_indent, Option.bind_some, readValue_congr (skip_blank _), hv, Option.bind_some, hfields]
      rfl
  | fields, depth, 0, rest, _, hfuel =>
      absurd (prettyFields_length_pos gap depth fields) (Nat.not_lt.mpr hfuel)
end

/-- **A canonical value is read from its indented text.** -/
theorem parse_pretty (gap : Nat) {v : Json} (h : Canonical v) : parse (pretty gap v) = some v := by
  have hread := readValue_prettyText gap v 0 h (Nat.le_refl _) Numerals.ends_nil
  rw [List.append_nil] at hread
  rw [parse, pretty, String.length_ofList, String.toList_ofList, hread]
  rfl

/-- The text may be a line of its own. -/
theorem parse_line {v : Json} (h : Canonical v) : parse (String.ofList (text v ++ ['\n'])) = some v := by
  have hends : Ends ['\n'] := Numerals.ends_cons [] (by decide)
  have hfuel : (text v).length ≤ (text v ++ ['\n']).length := by simp
  have hread := readValue_text v h hfuel hends
  rw [parse, String.length_ofList, String.toList_ofList, hread]
  rfl

/-- Small integers are doubles. -/
theorem canonical_intCast {n : Int} (h : |n| < 2 ^ 53) : (num n).Canonical := by
  have hcast : |(n : ℚ)| < 2 ^ 53 := by exact_mod_cast h
  have hcontains : binary64.Contains n :=
    ⟨n, 0, h, by decide, by rw [zpow_zero, mul_one]⟩
  have hlt : |(n : ℚ)| < 2 ^ binary64.maxExponent := by
    calc |(n : ℚ)| < 2 ^ 53 := hcast
      _ ≤ 2 ^ binary64.maxExponent := by
        rw [← zpow_natCast]
        exact zpow_le_zpow_right₀ one_le_two (by decide)
  exact Binary.Format.ofRat_eq_self.mpr ⟨hcontains, hlt⟩

/-! ## Nesting -/

mutual
/-- How many arrays and objects are open at once in the text. -/
def depth : Json → Nat
  | null | bool _ | num _ | str _ => 0
  | arr items => depthItems items + 1
  | obj fields => depthFields fields + 1

def depthItems : List Json → Nat
  | [] => 0
  | v :: items => max v.depth (depthItems items)

def depthFields : List (String × Json) → Nat
  | [] => 0
  | (_, v) :: fields => max v.depth (depthFields fields)
end

theorem depthItems_le {items : List Json} {n : Nat} (h : ∀ v ∈ items, v.depth ≤ n) : depthItems items ≤ n := by
  induction items with
  | nil => exact Nat.zero_le n
  | cons v items ih =>
      obtain ⟨hv, hitems⟩ := List.forall_mem_cons.mp h
      exact Nat.max_le.mpr ⟨hv, ih hitems⟩

theorem depthFields_le {fields : List (String × Json)} {n : Nat} (h : ∀ f ∈ fields, f.2.depth ≤ n) :
    depthFields fields ≤ n := by
  induction fields with
  | nil => exact Nat.zero_le n
  | cons f fields ih =>
      obtain ⟨hf, hfields⟩ := List.forall_mem_cons.mp h
      exact Nat.max_le.mpr ⟨hf, ih hfields⟩

theorem depth_le_of_mem {fields : List (String × Json)} {f : String × Json} (hf : f ∈ fields) :
    f.2.depth ≤ depthFields fields := by
  induction fields with
  | nil => exact absurd hf List.not_mem_nil
  | cons g fields ih =>
      rcases List.mem_cons.mp hf with rfl | hf
      · exact Nat.le_max_left _ _
      · exact (ih hf).trans (Nat.le_max_right _ _)

theorem canonicalItems_iff {items : List Json} : CanonicalItems items ↔ ∀ v ∈ items, v.Canonical := by
  induction items with
  | nil => exact iff_of_true trivial nofun
  | cons v items ih => rw [CanonicalItems, ih, List.forall_mem_cons]

theorem canonicalFields_iff {fields : List (String × Json)} :
    CanonicalFields fields ↔ ∀ f ∈ fields, f.2.Canonical := by
  induction fields with
  | nil => exact iff_of_true trivial nofun
  | cons f fields ih => rw [CanonicalFields, ih, List.forall_mem_cons]

/-- What is read of an object is one of its values. -/
theorem mem_of_field {fields : List (String × Json)} {key : String} {v : Json}
    (h : field (obj fields) key = some v) : ∃ f ∈ fields, f.2 = v := by
  obtain ⟨f, hf, rfl⟩ := Option.map_eq_some_iff.mp h
  exact ⟨f, List.mem_of_find?_eq_some hf, rfl⟩

/-! ## Fields that may be left out -/

/-- A field that is there unless its value is `undefined`. -/
def fieldOf (key : String) (v : Option Json) : List (String × Json) := (v.map (fun v => (key, v))).toList

@[simp] theorem fieldOf_none (key : String) : fieldOf key none = [] := rfl

@[simp] theorem fieldOf_some (key : String) (v : Json) : fieldOf key (some v) = [(key, v)] := rfl

theorem mem_fieldOf {key : String} {v : Option Json} {f : String × Json} :
    f ∈ fieldOf key v ↔ f.1 = key ∧ v = some f.2 := by
  obtain ⟨k, w⟩ := f
  cases v with
  | none => simp
  | some v => simp [eq_comm]

/-- The keys of the fields that are there come in the order of all keys. -/
theorem fieldOf_keys (key : String) (v : Option Json) : ((fieldOf key v).map Prod.fst).Sublist [key] := by
  cases v with
  | none => exact List.nil_sublist _
  | some v => exact List.Sublist.refl _

/-! ## Control characters -/

/-- A line feed, or no control character. -/
def Printable (c : Char) : Prop := c = '\n' ∨ 0x20 ≤ c.toNat

theorem quote_printable (k : String) : ∀ c ∈ quote k, 0x20 ≤ c.toNat := by
  have hhex : ∀ n < 16, 0x20 ≤ (Nat.digitChar n).toNat := by decide
  intro c hc
  rcases List.mem_cons.mp hc with rfl | hc
  · decide
  rcases List.mem_append.mp hc with hc | hc
  · obtain ⟨d, -, hc⟩ := List.mem_flatMap.mp hc
    rcases quoteChar_cases d with ⟨e, htext, -, he, -⟩ | ⟨hlt, htext, -⟩ | ⟨-, -, hge, htext, -⟩
    · rw [htext] at hc
      rcases List.mem_cons.mp hc with rfl | hc
      · decide
      · rw [List.mem_singleton.mp hc]
        by_contra hlt
        have hnone : ∀ n < 0x20, unescape (Char.ofNat n) = none := by decide
        rw [← Char.ofNat_toNat e, hnone _ (Nat.not_le.mp hlt)] at he
        cases he
    · rw [htext] at hc
      simp only [List.mem_cons, List.not_mem_nil, or_false] at hc
      rcases hc with rfl | rfl | rfl | rfl | rfl | rfl
      any_goals decide
      · exact hhex _ (by omega)
      · exact hhex _ (by omega)
    · rw [htext] at hc
      rw [List.mem_singleton.mp hc]
      exact hge
  · rw [List.mem_singleton.mp hc]
    decide

theorem numberText_printable {q : ℚ} (h : Numerals.Holds binary64 q) :
    ∀ c ∈ numberText binary64 q, 0x20 ≤ c.toNat := by
  intro c hc
  rcases Numerals.mem_numberText h hc with hdigit | hsign
  · exact Nat.le_trans (by decide) (Char.isDigit_iff_toNat.mp hdigit).1
  · simp only [List.mem_cons, List.not_mem_nil, or_false] at hsign
    rcases hsign with rfl | rfl | rfl | rfl <;> decide

theorem printable_of_all {cs : List Char} (h : cs.all (fun c => 0x20 ≤ c.toNat) = true) :
    ∀ c ∈ cs, 0x20 ≤ c.toNat := fun c hc => of_decide_eq_true (List.all_eq_true.mp h c hc)

/-- What is printable in the parts of a list is printable in the whole. -/
theorem forall_mem_cons_append {P : Char → Prop} {c : Char} {cs ds : List Char} (hc : P c)
    (hcs : ∀ c ∈ cs, P c) (hds : ∀ c ∈ ds, P c) : ∀ d ∈ c :: (cs ++ ds), P d := by
  intro d hd
  rcases List.mem_cons.mp hd with rfl | hd
  · exact hc
  · exact (List.mem_append.mp hd).elim (hcs d) (hds d)

mutual
theorem text_printable : ∀ v : Json, Canonical v → ∀ c ∈ text v, 0x20 ≤ c.toNat
  | null, _ | bool true, _ | bool false, _ | arr [], _ | obj [], _ => printable_of_all (by decide)
  | num q, h => numberText_printable h
  | str s, _ => quote_printable s
  | arr (v :: items), h =>
      forall_mem_cons_append (by decide) (text_printable v h.1) (itemsText_printable items h.2)
  | obj ((k, v) :: fields), h =>
      forall_mem_cons_append (by decide) (quote_printable k) (forall_mem_cons_append (by decide)
        (text_printable v h.2.1) (fieldsText_printable fields h.2.2))

theorem itemsText_printable : ∀ items : List Json, CanonicalItems items →
    ∀ c ∈ itemsText items, 0x20 ≤ c.toNat
  | [], _ => printable_of_all (by decide)
  | v :: items, h =>
      forall_mem_cons_append (by decide) (text_printable v h.1) (itemsText_printable items h.2)

theorem fieldsText_printable : ∀ fields : List (String × Json), CanonicalFields fields →
    ∀ c ∈ fieldsText fields, 0x20 ≤ c.toNat
  | [], _ => printable_of_all (by decide)
  | (k, v) :: fields, h =>
      forall_mem_cons_append (by decide) (quote_printable k) (forall_mem_cons_append (by decide)
        (text_printable v h.1) (fieldsText_printable fields h.2))
end

theorem indent_printable (n : Nat) : ∀ c ∈ indent n, Printable c := by
  intro c hc
  rcases List.mem_cons.mp hc with rfl | hc
  · exact Or.inl rfl
  · rw [List.eq_of_mem_replicate hc]
    exact Or.inr (by decide)

mutual
theorem prettyText_printable (gap : Nat) : ∀ (v : Json) (depth : Nat), Canonical v →
    ∀ c ∈ prettyText gap depth v, Printable c
  | null, depth, h | bool _, depth, h | num _, depth, h | str _, depth, h | arr [], depth, h
  | obj [], depth, h => by
      simp only [prettyText]
      exact fun c hc => Or.inr (text_printable _ h c hc)
  | arr (v :: items), depth, h => by
      rw [prettyText]
      exact forall_mem_cons_append (Or.inr (by decide)) (indent_printable _) (List.forall_mem_append.mpr
        ⟨prettyText_printable gap v _ h.1, prettyItems_printable gap items _ h.2⟩)
  | obj ((k, v) :: fields), depth, h => by
      rw [prettyText]
      refine forall_mem_cons_append (Or.inr (by decide)) (indent_printable _) (List.forall_mem_append.mpr
        ⟨fun c hc => Or.inr (quote_printable k c hc), ?_⟩)
      exact List.forall_mem_cons.mpr ⟨Or.inr (by decide), forall_mem_cons_append (Or.inr (by decide))
        (prettyText_printable gap v _ h.2.1) (prettyFields_printable gap fields _ h.2.2)⟩

theorem prettyItems_printable (gap : Nat) : ∀ (items : List Json) (depth : Nat), CanonicalItems items →
    ∀ c ∈ prettyItems gap depth items, Printable c
  | [], depth, _ => by
      rw [prettyItems]
      exact List.forall_mem_append.mpr ⟨indent_printable _, List.forall_mem_singleton.mpr (Or.inr (by decide))⟩
  | v :: items, depth, h => by
      rw [prettyItems]
      exact forall_mem_cons_append (Or.inr (by decide)) (indent_printable _) (List.forall_mem_append.mpr
        ⟨prettyText_printable gap v _ h.1, prettyItems_printable gap items _ h.2⟩)

theorem prettyFields_printable (gap : Nat) : ∀ (fields : List (String × Json)) (depth : Nat),
    CanonicalFields fields → ∀ c ∈ prettyFields gap depth fields, Printable c
  | [], depth, _ => by
      rw [prettyFields]
      exact List.forall_mem_append.mpr ⟨indent_printable _, List.forall_mem_singleton.mpr (Or.inr (by decide))⟩
  | (k, v) :: fields, depth, h => by
      rw [prettyFields]
      refine forall_mem_cons_append (Or.inr (by decide)) (indent_printable _) (List.forall_mem_append.mpr
        ⟨fun c hc => Or.inr (quote_printable k c hc), ?_⟩)
      exact List.forall_mem_cons.mpr ⟨Or.inr (by decide), forall_mem_cons_append (Or.inr (by decide))
        (prettyText_printable gap v _ h.1) (prettyFields_printable gap fields _ h.2)⟩
end

end Json
