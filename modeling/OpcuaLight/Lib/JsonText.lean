import OpcuaLight.Lib.JsMap
import OpcuaLight.Lib.Numerals
import OpcuaLight.Lib.Trim

/-!
# JSON texts

`JSON.stringify` and `JSON.parse` on the values of `Json`. The numbers of a value are doubles
(`Canonical`); a number out of their range, which JavaScript reads as `Infinity` and writes as `null`, is
read as `null`. A surrogate without its partner is read as U+FFFD, and the fields of an object keep the
order of the text.

* `parse_stringify` : a canonical value is read from its text;
* `text_trimmed` and `newline_notMem_text` : the text is one line, without white space around it.
-/

namespace Json

open Binary (binary64)
open Numerals (Ends numberText readNumber)

mutual
/-- The numbers are doubles, and the keys of an object distinct. -/
def Canonical : Json → Prop
  | null | bool _ | str _ => True
  | num q => Numerals.Holds binary64 q
  | arr items => CanonicalItems items
  | obj fields => (fields.map Prod.fst).Nodup ∧ CanonicalFields fields

def CanonicalItems : List Json → Prop
  | [] => True
  | v :: items => Canonical v ∧ CanonicalItems items

def CanonicalFields : List (String × Json) → Prop
  | [] => True
  | (_, v) :: fields => Canonical v ∧ CanonicalFields fields
end

/-! ## Writing -/

/-- A character inside the quotes. -/
def quoteChar (c : Char) : List Char :=
  if c = '"' then ['\\', '"']
  else if c = '\\' then ['\\', '\\']
  else if c = '\x08' then ['\\', 'b']
  else if c = '\x0c' then ['\\', 'f']
  else if c = '\n' then ['\\', 'n']
  else if c = '\r' then ['\\', 'r']
  else if c = '\t' then ['\\', 't']
  else if c.toNat < 0x20 then
    ['\\', 'u', '0', '0', Nat.digitChar (c.toNat / 16), Nat.digitChar (c.toNat % 16)]
  else [c]

/-- A string in quotes. -/
def quote (s : String) : List Char := '"' :: (s.toList.flatMap quoteChar ++ ['"'])

mutual
def text : Json → List Char
  | null => "null".toList
  | bool true => "true".toList
  | bool false => "false".toList
  | num q => numberText binary64 q
  | str s => quote s
  | arr [] => "[]".toList
  | arr (v :: items) => '[' :: (text v ++ itemsText items)
  | obj [] => "{}".toList
  | obj ((k, v) :: fields) => '{' :: (quote k ++ ':' :: (text v ++ fieldsText fields))

/-- The items behind the first one. -/
def itemsText : List Json → List Char
  | [] => [']']
  | v :: items => ',' :: (text v ++ itemsText items)

/-- The fields behind the first one. -/
def fieldsText : List (String × Json) → List Char
  | [] => ['}']
  | (k, v) :: fields => ',' :: (quote k ++ ':' :: (text v ++ fieldsText fields))
end

/-- `JSON.stringify(v)`. -/
def stringify (v : Json) : String := String.ofList (text v)

/-! ## Reading -/

def isJsonSpace (c : Char) : Bool := c = ' ' || c = '\t' || c = '\n' || c = '\r'

def skip (cs : List Char) : List Char := cs.dropWhile isJsonSpace

/-- What a backslash and the character stand for. -/
def unescape (c : Char) : Option Char :=
  if c = '"' ∨ c = '\\' ∨ c = '/' then some c
  else if c = 'b' then some '\x08'
  else if c = 'f' then some '\x0c'
  else if c = 'n' then some '\n'
  else if c = 'r' then some '\r'
  else if c = 't' then some '\t'
  else none

/-- The rest of a string behind its quote: characters, and the code units written in hexadecimal. -/
def readUnits : List Char → Option (List (Char ⊕ Nat) × List Char)
  | [] => none
  | '"' :: cs => some ([], cs)
  | '\\' :: 'u' :: a :: b :: c :: d :: cs =>
      (Js.digitsOf 16 [a, b, c, d]).bind fun n => (readUnits cs).map fun p => (.inr n :: p.1, p.2)
  | '\\' :: c :: cs => (unescape c).bind fun c => (readUnits cs).map fun p => (.inl c :: p.1, p.2)
  | c :: cs => if c.toNat < 0x20 then none else (readUnits cs).map fun p => (.inl c :: p.1, p.2)

/-- The character of a code unit alone. Half of a surrogate pair, which no string has, is read as the replacement
character. -/
def unitChar (n : Nat) : Char := if 0xd800 ≤ n ∧ n < 0xe000 then '\ufffd' else Char.ofNat n

/-- The characters of the units, with the two units of a surrogate pair for one character. -/
def joinUnits : List (Char ⊕ Nat) → List Char
  | [] => []
  | .inl c :: units => c :: joinUnits units
  | .inr high :: .inr low :: units =>
      if 0xd800 ≤ high ∧ high < 0xdc00 ∧ 0xdc00 ≤ low ∧ low < 0xe000 then
        Char.ofNat (0x10000 + (high - 0xd800) * 0x400 + (low - 0xdc00)) :: joinUnits units
      else unitChar high :: joinUnits (.inr low :: units)
  | .inr n :: units => unitChar n :: joinUnits units

/-- A string behind its quote. -/
def readString (cs : List Char) : Option (String × List Char) :=
  (readUnits cs).map fun p => (String.ofList (joinUnits p.1), p.2)

/-- The rest of a word that stands for a value. -/
def readWord (word : String) (v : Json) (cs : List Char) : Option (Json × List Char) :=
  if word.toList.isPrefixOf cs then some (v, cs.drop word.length) else none

/-- The value of a number that was read. -/
def ofDatum : Binary.Datum → Json
  | .finite q => num q
  | .infinite _ | .nan => null

/-- An object of the fields; of two fields with one key the later one has the value. -/
def ofFields (fields : List (String × Json)) : Json :=
  obj (fields.foldl (fun m f => m.set f.1 f.2) (∅ : JsMap String Json)).entries

/-- A key and the colon behind it. -/
def readKey (cs : List Char) : Option (String × List Char) :=
  match skip cs with
  | '"' :: cs =>
      (readString cs).bind fun k =>
        match skip k.2 with
        | ':' :: cs => some (k.1, cs)
        | _ => none
  | _ => none

mutual
/-- A value, nested less deep than the fuel, and what follows it. -/
def readValue : Nat → List Char → Option (Json × List Char)
  | 0, _ => none
  | fuel + 1, cs =>
      match skip cs with
      | [] => none
      | c :: cs =>
          if c = 'n' then readWord "ull" null cs
          else if c = 't' then readWord "rue" (bool true) cs
          else if c = 'f' then readWord "alse" (bool false) cs
          else if c = '"' then (readString cs).map fun p => (str p.1, p.2)
          else if c = '[' then
            if (skip cs).head? = some ']' then some (arr [], (skip cs).tail)
            else (readValue fuel cs).bind fun v =>
              (readItems fuel v.2).map fun p => (arr (v.1 :: p.1), p.2)
          else if c = '{' then
            if (skip cs).head? = some '}' then some (obj [], (skip cs).tail)
            else (readKey cs).bind fun k => (readValue fuel k.2).bind fun v =>
              (readFields fuel v.2).map fun p => (ofFields ((k.1, v.1) :: p.1), p.2)
          else (readNumber binary64 (c :: cs)).map fun p => (ofDatum p.1, p.2)

/-- The items behind the first one. -/
def readItems : Nat → List Char → Option (List Json × List Char)
  | 0, _ => none
  | fuel + 1, cs =>
      match skip cs with
      | ']' :: cs => some ([], cs)
      | ',' :: cs => (readValue fuel cs).bind fun v =>
          (readItems fuel v.2).map fun p => (v.1 :: p.1, p.2)
      | _ => none

/-- The fields behind the first one. -/
def readFields : Nat → List Char → Option (List (String × Json) × List Char)
  | 0, _ => none
  | fuel + 1, cs =>
      match skip cs with
      | '}' :: cs => some ([], cs)
      | ',' :: cs => (readKey cs).bind fun k => (readValue fuel k.2).bind fun v =>
          (readFields fuel v.2).map fun p => ((k.1, v.1) :: p.1, p.2)
      | _ => none
end

/-- `JSON.parse(s)`, with `none` when it throws. -/
def parse (s : String) : Option Json :=
  match readValue s.length s.toList with
  | some (v, rest) => if skip rest = [] then some v else none
  | none => none

/-! ## Strings -/

/-- What the reader makes of a character inside the quotes. -/
def unitOf (c : Char) : Char ⊕ Nat :=
  if c = '\x08' ∨ c = '\x0c' ∨ c = '\n' ∨ c = '\r' ∨ c = '\t' ∨ 0x20 ≤ c.toNat then .inl c
  else .inr c.toNat

theorem unhex_control : ∀ n < 0x20,
    Js.digitsOf 16 ['0', '0', Nat.digitChar (n / 16), Nat.digitChar (n % 16)] = some n := by decide

/-- A character is written with a letter, in hexadecimal, or as it is. -/
theorem quoteChar_cases (c : Char) :
    (∃ e, quoteChar c = ['\\', e] ∧ e ≠ 'u' ∧ unescape e = some c ∧ unitOf c = .inl c) ∨
      (c.toNat < 0x20 ∧ quoteChar c = ['\\', 'u', '0', '0', Nat.digitChar (c.toNat / 16),
        Nat.digitChar (c.toNat % 16)] ∧ unitOf c = .inr c.toNat) ∨
      (c ≠ '"' ∧ c ≠ '\\' ∧ 0x20 ≤ c.toNat ∧ quoteChar c = [c] ∧ unitOf c = .inl c) := by
  unfold quoteChar
  split_ifs with hquote hback hb hf hn hr ht hcontrol
  · exact Or.inl ⟨'"', rfl, by decide, by rw [hquote]; rfl, by rw [hquote]; rfl⟩
  · exact Or.inl ⟨'\\', rfl, by decide, by rw [hback]; rfl, by rw [hback]; rfl⟩
  · exact Or.inl ⟨'b', rfl, by decide, hb ▸ rfl, hb ▸ rfl⟩
  · exact Or.inl ⟨'f', rfl, by decide, hf ▸ rfl, hf ▸ rfl⟩
  · exact Or.inl ⟨'n', rfl, by decide, hn ▸ rfl, hn ▸ rfl⟩
  · exact Or.inl ⟨'r', rfl, by decide, hr ▸ rfl, hr ▸ rfl⟩
  · exact Or.inl ⟨'t', rfl, by decide, ht ▸ rfl, ht ▸ rfl⟩
  · refine Or.inr (Or.inl ⟨hcontrol, rfl, ?_⟩)
    simp only [unitOf, hb, hf, hn, hr, ht, false_or, if_neg (Nat.not_le.mpr hcontrol)]
  · have hge := Nat.not_lt.mp hcontrol
    refine Or.inr (Or.inr ⟨hquote, hback, hge, rfl, ?_⟩)
    simp only [unitOf, hge, or_true, if_true]

theorem readUnits_quoteChar (c : Char) (cs : List Char) :
    readUnits (quoteChar c ++ cs) = (readUnits cs).map fun p => (unitOf c :: p.1, p.2) := by
  rcases quoteChar_cases c with ⟨e, htext, hu, he, hunit⟩ | ⟨hlt, htext, hunit⟩ |
    ⟨hquote, hback, hge, htext, hunit⟩
  · rw [htext, hunit, List.cons_append, List.singleton_append, readUnits, he, Option.bind_some]
    exact fun _ _ _ _ _ heq => absurd heq hu
  · rw [htext, hunit]
    show readUnits ('\\' :: 'u' :: '0' :: '0' :: _ :: _ :: cs) = _
    rw [readUnits, unhex_control _ hlt, Option.bind_some]
  · rw [htext, hunit, List.singleton_append, readUnits, if_neg (Nat.not_lt.mpr hge)]
    · exact hquote
    · exact fun _ _ _ _ _ hc => absurd hc hback
    · exact fun _ _ hc => absurd hc hback

/-- A code unit below the surrogates stands alone. -/
theorem joinUnits_low {n : Nat} (h : n < 0xd800) (units : List (Char ⊕ Nat)) :
    joinUnits (.inr n :: units) = Char.ofNat n :: joinUnits units := by
  have hchar : unitChar n = Char.ofNat n := if_neg fun hn => Nat.not_le.mpr h hn.1
  rw [← hchar]
  match units with
  | [] => simp only [joinUnits]
  | .inl c :: units => simp only [joinUnits]
  | .inr low :: units => rw [joinUnits, if_neg fun hn => Nat.not_le.mpr h hn.1]

theorem joinUnits_unitOf (cs : List Char) : joinUnits (cs.map unitOf) = cs := by
  induction cs with
  | nil => rfl
  | cons c cs ih =>
      rw [List.map_cons]
      rcases quoteChar_cases c with ⟨e, -, -, -, hunit⟩ | ⟨hlt, -, hunit⟩ | ⟨-, -, -, -, hunit⟩
      · rw [hunit, joinUnits, ih]
      · rw [hunit, joinUnits_low (by omega), ih, Char.ofNat_toNat]
      · rw [hunit, joinUnits, ih]

theorem readString_quote (s : String) (rest : List Char) :
    readString (s.toList.flatMap quoteChar ++ '"' :: rest) = some (s, rest) := by
  have hunits : ∀ cs : List Char,
      readUnits (cs.flatMap quoteChar ++ '"' :: rest) = some (cs.map unitOf, rest) := by
    intro cs
    induction cs with
    | nil => rfl
    | cons c cs ih => rw [List.flatMap_cons, List.append_assoc, readUnits_quoteChar, ih]; rfl
  rw [readString, hunits, Option.map_some, joinUnits_unitOf, String.ofList_toList]

/-! ## Objects -/

/-- Fields with distinct keys are kept as they are. -/
theorem ofFields_of_nodup {fields : List (String × Json)} (h : (fields.map Prod.fst).Nodup) :
    ofFields fields = obj fields := by
  have hfold : ∀ (fields : List (String × Json)) (m : JsMap String Json), (fields.map Prod.fst).Nodup →
      (∀ f ∈ fields, f.1 ∉ m.keys) →
      (fields.foldl (fun m f => m.set f.1 f.2) m).entries = m.entries ++ fields := by
    intro fields
    induction fields with
    | nil => exact fun m _ _ => (List.append_nil _).symm
    | cons f fields ih =>
        intro m hn hm
        obtain ⟨hf, hn⟩ := List.nodup_cons.mp hn
        have hget : m.get? f.1 = none := JsMap.get?_eq_none_iff.mpr (hm f List.mem_cons_self)
        have hslots : (m.set f.1 f.2).slots = m.slots ++ [(m.next, f.1, f.2)] := by
          rw [JsMap.set, dif_pos hget]
          rfl
        rw [List.foldl_cons, ih _ hn]
        · rw [JsMap.entries, hslots, List.map_append, List.append_assoc]
          rfl
        · intro g hg hkey
          rw [JsMap.keys, hslots, List.map_append, List.mem_append] at hkey
          rcases hkey with hkey | hkey
          · exact hm g (List.mem_cons_of_mem _ hg) hkey
          · have hsame : g.1 = f.1 := List.mem_singleton.mp hkey
            exact hf (hsame ▸ List.mem_map_of_mem hg)
  rw [ofFields, hfold fields ∅ h fun f _ => by simp, JsMap.entries_empty, List.nil_append]

/-! ## Values -/

theorem skip_of_notSpace {c : Char} (h : isJsonSpace c = false) (cs : List Char) :
    skip (c :: cs) = c :: cs := by
  rw [skip, List.dropWhile_cons, h]
  rfl

/-- The text of a number starts with a digit or a sign. -/
theorem numberText_head {q : ℚ} (h : Numerals.Holds binary64 q) :
    ∃ c cs, numberText binary64 q = c :: cs ∧ (c = '-' ∨ c.isDigit = true) := by
  unfold numberText
  split_ifs with h0 hneg
  · exact ⟨'0', [], rfl, Or.inr rfl⟩
  · exact ⟨'-', _, rfl, Or.inl rfl⟩
  · have hpos : 0 < q := lt_of_le_of_ne (not_lt.mp hneg) (Ne.symm h0)
    obtain ⟨n, hwell, htext, -⟩ := Numerals.positiveText_spec h hpos
    obtain ⟨d, hd, hdigit⟩ := hwell.head
    obtain ⟨cs, hcs⟩ := List.head?_eq_some_iff.mp hd
    exact ⟨d, cs, htext.trans hcs, Or.inr hdigit⟩

/-- A digit or a sign starts nothing but a number. -/
theorem number_start {c : Char} (h : c = '-' ∨ c.isDigit = true) : isJsonSpace c = false ∧ c ≠ 'n' ∧
    c ≠ 't' ∧ c ≠ 'f' ∧ c ≠ '"' ∧ c ≠ '[' ∧ c ≠ '{' ∧ c ≠ ']' := by
  rcases h with rfl | h
  · decide
  · refine ⟨?_, ?_, ?_, ?_, ?_, ?_, ?_, ?_⟩
    · by_contra hspace
      rw [Bool.not_eq_false, isJsonSpace] at hspace
      simp only [Bool.or_eq_true, decide_eq_true_eq] at hspace
      rcases hspace with ((rfl | rfl) | rfl) | rfl <;> cases h
    all_goals
      rintro rfl
      cases h

/-- The text of a value starts with a character that is no white space and no bracket that closes. -/
theorem text_head {v : Json} (h : Canonical v) :
    ∃ c cs, text v = c :: cs ∧ isJsonSpace c = false ∧ c ≠ ']' := by
  match v, h with
  | null, _ => exact ⟨'n', "ull".toList, rfl, by decide⟩
  | bool true, _ => exact ⟨'t', "rue".toList, rfl, by decide⟩
  | bool false, _ => exact ⟨'f', "alse".toList, rfl, by decide⟩
  | num q, h =>
      obtain ⟨c, cs, hcs, hc⟩ := numberText_head h
      have hstart := number_start hc
      exact ⟨c, cs, hcs, hstart.1, hstart.2.2.2.2.2.2.2⟩
  | str s, _ => exact ⟨'"', _, rfl, by decide⟩
  | arr [], _ => exact ⟨'[', [']'], rfl, by decide⟩
  | arr (v :: items), _ => exact ⟨'[', _, rfl, by decide⟩
  | obj [], _ => exact ⟨'{', ['}'], rfl, by decide⟩
  | obj ((k, v) :: fields), _ => exact ⟨'{', _, rfl, by decide⟩

theorem ends_itemsText (items : List Json) (rest : List Char) : Ends (itemsText items ++ rest) := by
  cases items with
  | nil => exact Numerals.ends_cons _ (by decide)
  | cons v items => exact Numerals.ends_cons _ (by decide)

theorem ends_fieldsText (fields : List (String × Json)) (rest : List Char) :
    Ends (fieldsText fields ++ rest) := by
  cases fields with
  | nil => exact Numerals.ends_cons _ (by decide)
  | cons f fields => exact Numerals.ends_cons _ (by decide)

theorem text_length_pos {v : Json} (h : Canonical v) : 0 < (text v).length := by
  obtain ⟨c, cs, hcs, -⟩ := text_head h
  rw [hcs]
  exact Nat.succ_pos _

theorem readValue_bracket (fuel : Nat) (cs : List Char) : readValue (fuel + 1) ('[' :: cs) =
    if (skip cs).head? = some ']' then some (arr [], (skip cs).tail)
    else (readValue fuel cs).bind fun v =>
      (readItems fuel v.2).map fun p => (arr (v.1 :: p.1), p.2) := rfl

theorem readValue_brace (fuel : Nat) (cs : List Char) : readValue (fuel + 1) ('{' :: cs) =
    if (skip cs).head? = some '}' then some (obj [], (skip cs).tail)
    else (readKey cs).bind fun k => (readValue fuel k.2).bind fun v =>
      (readFields fuel v.2).map fun p => (ofFields ((k.1, v.1) :: p.1), p.2) := rfl

theorem itemsText_length_pos (items : List Json) : 0 < (itemsText items).length := by
  cases items <;> exact Nat.succ_pos _

theorem fieldsText_length_pos (fields : List (String × Json)) : 0 < (fieldsText fields).length := by
  cases fields <;> exact Nat.succ_pos _

theorem readKey_quote (k : String) (rest : List Char) : readKey (quote k ++ ':' :: rest) = some (k, rest) := by
  rw [quote, List.cons_append, List.append_assoc, List.singleton_append, readKey,
    skip_of_notSpace (by decide)]
  show (readString _).bind _ = _
  rw [readString_quote, Option.bind_some, skip_of_notSpace (by decide)]
  rfl

mutual
/-- **A value is read from its text**, whatever follows it. -/
theorem readValue_text : ∀ (v : Json) {fuel : Nat} {rest : List Char}, Canonical v →
    (text v).length ≤ fuel → Ends rest → readValue fuel (text v ++ rest) = some (v, rest)
  | null, fuel + 1, rest, _, _, _ => rfl
  | bool true, fuel + 1, rest, _, _, _ => rfl
  | bool false, fuel + 1, rest, _, _, _ => rfl
  | num q, fuel + 1, rest, h, _, hrest => by
      obtain ⟨c, cs, hcs, hc⟩ := numberText_head h
      obtain ⟨hspace, hn, ht, hf, hquote, hbracket, hbrace, -⟩ := number_start hc
      have hread := Numerals.readNumber_numberText (F := binary64) h hrest
      rw [text]
      rw [hcs, List.cons_append] at hread ⊢
      rw [readValue, skip_of_notSpace hspace]
      simp only [if_neg hn, if_neg ht, if_neg hf, if_neg hquote, if_neg hbracket, if_neg hbrace]
      rw [hread]
      rfl
  | str s, fuel + 1, rest, _, _, _ => by
      rw [text, quote, List.cons_append, List.append_assoc, List.singleton_append, readValue,
        skip_of_notSpace (by decide)]
      show (readString _).map _ = _
      rw [readString_quote]
      rfl
  | arr [], fuel + 1, rest, _, _, _ => rfl
  | arr (v :: items), fuel + 1, rest, h, hfuel, _ => by
      rw [text, List.length_cons, List.length_append] at hfuel
      have hlast := itemsText_length_pos items
      have hpos := text_length_pos h.1
      have hv : readValue fuel (text v ++ (itemsText items ++ rest)) = some (v, itemsText items ++ rest) :=
        readValue_text v h.1 (by omega) (ends_itemsText items rest)
      have hitems : readItems fuel (itemsText items ++ rest) = some (items, rest) :=
        readItems_text items h.2 (by omega)
      obtain ⟨c, cs, hcs, hspace, hbracket⟩ := text_head h.1
      have hne : ¬(skip (text v ++ (itemsText items ++ rest))).head? = some ']' := by
        rw [hcs, List.cons_append, skip_of_notSpace hspace]
        exact fun heq => hbracket (Option.some.inj heq)
      rw [text, List.cons_append, List.append_assoc, readValue_bracket, if_neg hne, hv, Option.bind_some,
        hitems]
      rfl
  | obj [], fuel + 1, rest, _, _, _ => rfl
  | obj ((k, v) :: fields), fuel + 1, rest, h, hfuel, _ => by
      rw [text, List.length_cons, List.length_append, List.length_cons, List.length_append] at hfuel
      have hlast := fieldsText_length_pos fields
      have hpos := text_length_pos h.2.1
      have hv : readValue fuel (text v ++ (fieldsText fields ++ rest)) = some (v, fieldsText fields ++ rest) :=
        readValue_text v h.2.1 (by omega) (ends_fieldsText fields rest)
      have hfields : readFields fuel (fieldsText fields ++ rest) = some (fields, rest) :=
        readFields_text fields h.2.2 (by omega)
      have hne : ¬(skip (quote k ++ ':' :: (text v ++ (fieldsText fields ++ rest)))).head? = some '}' := by
        rw [quote, List.cons_append, skip_of_notSpace (by decide)]
        exact fun heq => absurd (Option.some.inj heq) (by decide)
      rw [text, List.cons_append, List.append_assoc, List.cons_append, List.append_assoc, readValue_brace,
        if_neg hne, readKey_quote, Option.bind_some, hv, Option.bind_some, hfields, Option.map_some,
        ofFields_of_nodup h.1]
  | v, 0, rest, h, hfuel, _ => absurd (text_length_pos h) (Nat.not_lt.mpr hfuel)

theorem readItems_text : ∀ (items : List Json) {fuel : Nat} {rest : List Char}, CanonicalItems items →
    (itemsText items).length ≤ fuel → readItems fuel (itemsText items ++ rest) = some (items, rest)
  | [], fuel + 1, rest, _, _ => rfl
  | v :: items, fuel + 1, rest, h, hfuel => by
      rw [itemsText, List.length_cons, List.length_append] at hfuel
      have hlast := itemsText_length_pos items
      have hv : readValue fuel (text v ++ (itemsText items ++ rest)) = some (v, itemsText items ++ rest) :=
        readValue_text v h.1 (by omega) (ends_itemsText items rest)
      have hitems : readItems fuel (itemsText items ++ rest) = some (items, rest) :=
        readItems_text items h.2 (by omega)
      rw [itemsText, List.cons_append, List.append_assoc, readItems, skip_of_notSpace (by decide)]
      show (readValue fuel _).bind _ = _
      rw [hv, Option.bind_some, hitems]
      rfl
  | items, 0, rest, _, hfuel => absurd (itemsText_length_pos items) (Nat.not_lt.mpr hfuel)

theorem readFields_text : ∀ (fields : List (String × Json)) {fuel : Nat} {rest : List Char},
    CanonicalFields fields → (fieldsText fields).length ≤ fuel →
    readFields fuel (fieldsText fields ++ rest) = some (fields, rest)
  | [], fuel + 1, rest, _, _ => rfl
  | (k, v) :: fields, fuel + 1, rest, h, hfuel => by
      rw [fieldsText, List.length_cons, List.length_append, List.length_cons, List.length_append] at hfuel
      have hlast := fieldsText_length_pos fields
      have hv : readValue fuel (text v ++ (fieldsText fields ++ rest)) = some (v, fieldsText fields ++ rest) :=
        readValue_text v h.1 (by omega) (ends_fieldsText fields rest)
      have hfields : readFields fuel (fieldsText fields ++ rest) = some (fields, rest) :=
        readFields_text fields h.2 (by omega)
      rw [fieldsText, List.cons_append, List.append_assoc, List.cons_append, List.append_assoc, readFields,
        skip_of_notSpace (by decide)]
      show (readKey _).bind _ = _
      rw [readKey_quote, Option.bind_some, hv, Option.bind_some, hfields]
      rfl
  | fields, 0, rest, _, hfuel => absurd (fieldsText_length_pos fields) (Nat.not_lt.mpr hfuel)
end

/-- **A canonical value is read from its text.** -/
theorem parse_stringify {v : Json} (h : Canonical v) : parse (stringify v) = some v := by
  have hread := readValue_text v h (Nat.le_refl _) Numerals.ends_nil
  rw [List.append_nil] at hread
  rw [parse, stringify, String.length_ofList, String.toList_ofList, hread]
  rfl

/-! ## White space -/

/-- The characters of numbers are no white space. -/
theorem numberText_notSpace {q : ℚ} (h : Numerals.Holds binary64 q) :
    ∀ c ∈ numberText binary64 q, Js.isSpace c = false := by
  intro c hc
  have hsigns : ['-', '+', '.', 'e'].all (fun d => !Js.isSpace d) = true := by decide
  exact (Numerals.mem_numberText h hc).elim Js.digit_notSpace fun hsign =>
    Bool.not_eq_true' _ ▸ List.all_eq_true.mp hsigns c hsign

theorem quote_last (k : String) : (quote k).getLast? = some '"' := by
  rw [quote, ← List.cons_append, List.getLast?_append]
  rfl

theorem itemsText_last : ∀ items : List Json, (itemsText items).getLast? = some ']'
  | [] => rfl
  | v :: items => by
      rw [itemsText, ← List.cons_append, List.getLast?_append, itemsText_last items]
      rfl

theorem fieldsText_last : ∀ fields : List (String × Json), (fieldsText fields).getLast? = some '}'
  | [] => rfl
  | (k, v) :: fields => by
      have hsplit : fieldsText ((k, v) :: fields) =
          (',' :: (quote k ++ ':' :: text v)) ++ fieldsText fields := by
        rw [fieldsText, List.cons_append, List.append_assoc, List.cons_append]
      rw [hsplit, List.getLast?_append, fieldsText_last fields]
      rfl

/-- There is no white space around the text of a value. -/
theorem text_trimmed {v : Json} (h : Canonical v) : Js.Trimmed (text v) := by
  have hends : ∀ {cs : List Char} {c d : Char}, cs.head? = some c → cs.getLast? = some d →
      Js.isSpace c = false → Js.isSpace d = false → Js.Trimmed cs := by
    intro cs c d hhead hlast hc hd
    exact ⟨fun a ha => Option.some.inj (hhead.symm.trans ha) ▸ hc,
      fun a ha => Option.some.inj (hlast.symm.trans ha) ▸ hd⟩
  match v with
  | null => exact hends (c := 'n') (d := 'l') rfl rfl rfl rfl
  | bool true => exact hends (c := 't') (d := 'e') rfl rfl rfl rfl
  | bool false => exact hends (c := 'f') (d := 'e') rfl rfl rfl rfl
  | num q =>
      rw [text]
      exact ⟨fun c hc => numberText_notSpace h c (List.mem_of_mem_head? hc),
        fun c hc => numberText_notSpace h c (List.mem_of_mem_getLast? hc)⟩
  | str s => exact hends rfl (quote_last s) rfl rfl
  | arr [] => exact hends (c := '[') (d := ']') rfl rfl rfl rfl
  | arr (v :: items) =>
      refine hends (c := '[') (d := ']') rfl ?_ rfl rfl
      rw [text, ← List.cons_append, List.getLast?_append, itemsText_last]
      rfl
  | obj [] => exact hends (c := '{') (d := '}') rfl rfl rfl rfl
  | obj ((k, v) :: fields) =>
      refine hends (c := '{') (d := '}') rfl ?_ rfl rfl
      have hsplit : text (obj ((k, v) :: fields)) =
          ('{' :: (quote k ++ ':' :: text v)) ++ fieldsText fields := by
        rw [text, List.cons_append, List.append_assoc, List.cons_append]
      rw [hsplit, List.getLast?_append, fieldsText_last fields]
      rfl

theorem newline_notMem_quote (k : String) : '\n' ∉ quote k := by
  have hhex : ∀ n < 16, Nat.digitChar n ≠ '\n' := by decide
  intro h
  rcases List.mem_cons.mp h with h | h
  · cases h
  rcases List.mem_append.mp h with h | h
  · obtain ⟨c, -, hc⟩ := List.mem_flatMap.mp h
    rcases quoteChar_cases c with ⟨e, htext, -, he, -⟩ | ⟨hlt, htext, -⟩ | ⟨-, -, hge, htext, -⟩
    · rw [htext] at hc
      rcases List.mem_cons.mp hc with hc | hc
      · cases hc
      · rw [← List.mem_singleton.mp hc] at he
        cases he
    · rw [htext] at hc
      simp only [List.mem_cons, List.not_mem_nil, or_false] at hc
      rcases hc with hc | hc | hc | hc | hc | hc
      any_goals cases hc
      · exact hhex _ (by omega) hc.symm
      · exact hhex _ (by omega) hc.symm
    · rw [htext] at hc
      rw [← List.mem_singleton.mp hc] at hge
      exact absurd hge (by decide)
  · exact absurd h (by decide)

mutual
/-- The text of a value is one line. -/
theorem newline_notMem_text : ∀ v : Json, Canonical v → '\n' ∉ text v
  | null, _ | bool true, _ | bool false, _ | arr [], _ | obj [], _ => by decide
  | num q, h => fun hmem => absurd (numberText_notSpace h _ hmem) (by decide)
  | str s, _ => newline_notMem_quote s
  | arr (v :: items), h => by
      rw [text, List.mem_cons, List.mem_append]
      rintro (hmem | hmem | hmem)
      · cases hmem
      · exact newline_notMem_text v h.1 hmem
      · exact newline_notMem_itemsText items h.2 hmem
  | obj ((k, v) :: fields), h => by
      rw [text, List.mem_cons, List.mem_append, List.mem_cons, List.mem_append]
      rintro (hmem | hmem | hmem | hmem | hmem)
      · cases hmem
      · exact newline_notMem_quote k hmem
      · cases hmem
      · exact newline_notMem_text v h.2.1 hmem
      · exact newline_notMem_fieldsText fields h.2.2 hmem

theorem newline_notMem_itemsText : ∀ items : List Json, CanonicalItems items → '\n' ∉ itemsText items
  | [], _ => by decide
  | v :: items, h => by
      rw [itemsText, List.mem_cons, List.mem_append]
      rintro (hmem | hmem | hmem)
      · cases hmem
      · exact newline_notMem_text v h.1 hmem
      · exact newline_notMem_itemsText items h.2 hmem

theorem newline_notMem_fieldsText : ∀ fields : List (String × Json), CanonicalFields fields →
    '\n' ∉ fieldsText fields
  | [], _ => by decide
  | (k, v) :: fields, h => by
      rw [fieldsText, List.mem_cons, List.mem_append, List.mem_cons, List.mem_append]
      rintro (hmem | hmem | hmem | hmem | hmem)
      · cases hmem
      · exact newline_notMem_quote k hmem
      · cases hmem
      · exact newline_notMem_text v h.1 hmem
      · exact newline_notMem_fieldsText fields h.2 hmem
end

end Json
