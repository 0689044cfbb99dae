import OpcuaLight.Api.Connectors
import OpcuaLight.Lib.Pieces
import OpcuaLight.Lib.Trim

/-!
# CSV texts

The exports join escaped fields into rows and rows into a text; the imports cut the text into lines before
they look at the quotes. A row is read back for all fields (`parseCsvLine_csvRow`), a text only if no field
has a line break (`csvLines_csvText`).
-/

namespace OpcuaLight.Api

/-- A field in quotes if it has a comma, a quote or a line break. -/
def escapeChars (cs : List Char) : List Char :=
  if ',' ∈ cs ∨ '"' ∈ cs ∨ '\n' ∈ cs ∨ '\r' ∈ cs then
    '"' :: (cs.flatMap (fun c => if c = '"' then ['"', '"'] else [c]) ++ ['"'])
  else cs

def escapeCsvField (value : String) : String := String.ofList (escapeChars value.toList)

/-- `[..].join(',')` of the escaped fields. -/
def csvRow (fields : List String) : String := ",".intercalate (fields.map escapeCsvField)

/-- The header and the rows, as the exports join them. -/
def csvText (header : String) (rows : List (List String)) : String :=
  "\n".intercalate (header :: rows.map csvRow)

/-- The lines of a text that the imports look at: those that are not blank. -/
def csvLines (csv : String) : List String :=
  (splitLines [] csv.toList).filter (fun l => Js.trim l ≠ "")

/-! ## A row -/

/-! One round of the loop of `parseCsvLine`, outside quotes and inside. -/

variable {c : Char} {current : List Char} {cs rest : List Char}

theorem csvFields_nil (inQuotes : Bool) : csvFields inQuotes current [] = [String.ofList current] := by
  rw [csvFields]

theorem csvFields_open : csvFields false current ('"' :: cs) = csvFields true current cs := by
  rw [csvFields.eq_def]
  rfl

theorem csvFields_comma :
    csvFields false current (',' :: cs) = String.ofList current :: csvFields false [] cs := by
  rw [csvFields.eq_def]
  rfl

theorem csvFields_outside (hquote : c ≠ '"') (hcomma : c ≠ ',') :
    csvFields false current (c :: cs) = csvFields false (current ++ [c]) cs := by
  rw [csvFields.eq_def]
  simp only [Bool.false_eq_true, if_false, if_neg hquote, if_neg hcomma]

theorem csvFields_inside (hquote : c ≠ '"') :
    csvFields true current (c :: cs) = csvFields true (current ++ [c]) cs := by
  rw [csvFields.eq_def]
  simp only [if_true, if_neg hquote]

theorem csvFields_double :
    csvFields true current ('"' :: '"' :: cs) = csvFields true (current ++ ['"']) cs := by
  rw [csvFields.eq_def]
  rfl

theorem csvFields_close (h : rest.head? ≠ some '"') :
    csvFields true current ('"' :: rest) = csvFields false current rest := by
  rw [csvFields.eq_def]
  simp only [if_true]
  split
  · exact absurd rfl h
  · rfl

theorem csvFields_plain (hcomma : ',' ∉ cs) (hquote : '"' ∉ cs) :
    csvFields false current (cs ++ rest) = csvFields false (current ++ cs) rest := by
  induction cs generalizing current with
  | nil => rw [List.nil_append, List.append_nil]
  | cons c cs ih =>
      rw [List.mem_cons, not_or] at hcomma hquote
      rw [List.cons_append, csvFields_outside (Ne.symm hquote.1) (Ne.symm hcomma.1),
        ih hcomma.2 hquote.2, List.append_assoc, List.singleton_append]

theorem csvFields_quoted (h : rest.head? ≠ some '"') :
    csvFields true current (cs.flatMap (fun c => if c = '"' then ['"', '"'] else [c]) ++ '"' :: rest) =
      csvFields false (current ++ cs) rest := by
  induction cs generalizing current with
  | nil => rw [List.flatMap_nil, List.nil_append, csvFields_close h, List.append_nil]
  | cons c cs ih =>
      rw [List.flatMap_cons, List.append_assoc]
      by_cases hc : c = '"'
      · rw [if_pos hc, List.cons_append, List.singleton_append, csvFields_double, ih, hc,
          List.append_assoc, List.singleton_append]
      · rw [if_neg hc, List.singleton_append, csvFields_inside hc, ih, List.append_assoc,
          List.singleton_append]

theorem csvFields_escaped (h : rest.head? ≠ some '"') :
    csvFields false [] (escapeChars cs ++ rest) = csvFields false cs rest := by
  unfold escapeChars
  split_ifs with hspecial
  · rw [List.cons_append, List.append_assoc, List.singleton_append, csvFields_open, csvFields_quoted h,
      List.nil_append]
  · rw [not_or, not_or] at hspecial
    rw [csvFields_plain hspecial.1 hspecial.2.1, List.nil_append]

theorem csvRow_toList (fields : List String) :
    (csvRow fields).toList = [','].intercalate (fields.map (fun f => escapeChars f.toList)) := by
  rw [csvRow, String.toList_intercalate, List.map_map]
  congr 1
  apply List.map_congr_left
  intro f _
  rw [Function.comp_apply, escapeCsvField, String.toList_ofList]

/-- The fields of a row are read back, whatever their characters are. -/
theorem parseCsvLine_csvRow {fields : List String} (h : fields ≠ []) :
    parseCsvLine (csvRow fields) = fields := by
  have hchars : ∀ (field : String) (fields : List String),
      csvFields false [] ([','].intercalate ((field :: fields).map (fun f => escapeChars f.toList))) =
        field :: fields := by
    intro field fields
    induction fields generalizing field with
    | nil =>
        have hlast : csvFields false [] (escapeChars field.toList ++ []) = csvFields false field.toList [] :=
          csvFields_escaped (by decide)
        rw [List.append_nil] at hlast
        rw [List.map_singleton, List.intercalate_singleton, hlast, csvFields_nil, String.ofList_toList]
    | cons next fields ih =>
        have hnext := ih next
        rw [List.map_cons] at hnext
        rw [List.map_cons, List.map_cons, List.intercalate_cons_cons, List.append_assoc,
          List.singleton_append, csvFields_escaped (by simp), csvFields_comma, hnext, String.ofList_toList]
  obtain ⟨field, fields, rfl⟩ := List.exists_cons_of_ne_nil h
  rw [parseCsvLine, csvRow_toList, hchars]

/-- **The fields of a line.** Whatever characters the fields have, `parseCsvLine` reads them back from their
escaped forms joined with commas. -/
theorem parseCsvLine_joined (fs : List String) (hfs : fs ≠ []) :
    parseCsvLine (",".intercalate (fs.map escapeCsvField)) = fs :=
  parseCsvLine_csvRow hfs

theorem parseCsvLine_joined_quoted :
    ["a,b", "", "say \"x\"", "two\r\nlines"] ≠ [] ∧
    parseCsvLine (",".intercalate (["a,b", "", "say \"x\"", "two\r\nlines"].map escapeCsvField)) =
      ["a,b", "", "say \"x\"", "two\r\nlines"] :=
  ⟨by decide, parseCsvLine_joined _ (by decide)⟩

/-! ## The lines of a text -/

theorem splitLines_other {c : Char} {cs current : List Char} (hc : c ≠ '\n')
    (hnext : c = '\r' → cs.head? ≠ some '\n') :
    splitLines current (c :: cs) = splitLines (current ++ [c]) cs := by
  rw [splitLines]
  · exact hc
  · rintro rest rfl rfl
    exact hnext rfl rfl

theorem splitLines_last {line current : List Char} (h : '\n' ∉ line) :
    splitLines current line = [String.ofList (current ++ line)] := by
  induction line generalizing current with
  | nil => rw [splitLines, List.append_nil]
  | cons c line ih =>
      rw [List.mem_cons, not_or] at h
      rw [splitLines_other (Ne.symm h.1) fun _ hhead => h.2 (List.mem_of_mem_head? hhead), ih h.2,
        List.append_assoc, List.singleton_append]

theorem splitLines_line {line current : List Char} (rest : List Char) (h : '\n' ∉ line)
    (hlast : line.getLast? ≠ some '\r') :
    splitLines current (line ++ '\n' :: rest) = String.ofList (current ++ line) :: splitLines [] rest := by
  induction line generalizing current with
  | nil => rw [List.nil_append, splitLines, List.append_nil]
  | cons c line ih =>
      rw [List.mem_cons, not_or] at h
      rw [List.cons_append, splitLines_other (Ne.symm h.1)]
      · rw [ih h.2, List.append_assoc, List.singleton_append]
        cases line with
        | nil => exact nofun
        | cons d line => rwa [List.getLast?_cons_cons] at hlast
      -- a carriage return is not the last character of the line
      · rintro rfl hhead
        cases line with
        | nil => exact hlast rfl
        | cons d line => exact h.2 (List.mem_cons.mpr (Or.inl (Option.some.inj hhead).symm))

theorem splitLines_intercalate {lines : List (List Char)} (hne : lines ≠ [])
    (h : ∀ line ∈ lines, '\n' ∉ line ∧ line.getLast? ≠ some '\r') :
    splitLines [] (['\n'].intercalate lines) = lines.map String.ofList := by
  induction lines with
  | nil => exact absurd rfl hne
  | cons line lines ih =>
      obtain ⟨hline, hlast⟩ := h line List.mem_cons_self
      cases lines with
      | nil => rw [List.intercalate_singleton, splitLines_last hline]; rfl
      | cons next lines =>
          rw [List.intercalate_cons_cons, List.append_assoc, List.singleton_append,
            splitLines_line _ hline hlast, ih (List.cons_ne_nil _ _) fun l hl => h l (List.mem_cons_of_mem _ hl)]
          rfl

theorem mem_escapeChars {c : Char} {cs : List Char} (h : c ∈ escapeChars cs) : c ∈ cs ∨ c = '"' := by
  unfold escapeChars at h
  split_ifs at h
  · rcases List.mem_cons.mp h with h | h
    · exact Or.inr h
    rcases List.mem_append.mp h with h | h
    · obtain ⟨d, hd, hc⟩ := List.mem_flatMap.mp h
      split_ifs at hc with hquote
      · simp only [List.mem_cons, List.not_mem_nil, or_false, or_self] at hc
        exact Or.inr hc
      · rw [List.mem_singleton.mp hc]
        exact Or.inl hd
    · exact Or.inr (List.mem_singleton.mp h)
  · exact Or.inl h

theorem getLast?_escapeChars (cs : List Char) : (escapeChars cs).getLast? ≠ some '\r' := by
  unfold escapeChars
  split_ifs with h
  · rw [← List.cons_append, List.getLast?_append]
    exact fun heq => absurd (Option.some.inj heq) (by decide)
  · intro heq
    exact h (Or.inr (Or.inr (Or.inr (List.mem_of_mem_getLast? heq))))

/-- A row of at least two fields without a line break is a line. -/
theorem csvRow_line {fields : List String} (hlen : 2 ≤ fields.length)
    (h : ∀ f ∈ fields, '\n' ∉ f.toList) :
    '\n' ∉ (csvRow fields).toList ∧ (csvRow fields).toList.getLast? ≠ some '\r' ∧
      Js.trim (csvRow fields) ≠ "" := by
  refine ⟨?_, ?_, ?_⟩
  · rw [csvRow_toList]
    intro hmem
    rcases Pieces.mem_intercalate hmem with hc | ⟨piece, hpiece, hc⟩
    · cases hc
    · obtain ⟨f, hf, rfl⟩ := List.mem_map.mp hpiece
      exact (mem_escapeChars hc).elim (h f hf) nofun
  · rw [csvRow_toList]
    refine Pieces.getLast?_intercalate (by decide) fun piece hpiece => ?_
    obtain ⟨f, -, rfl⟩ := List.mem_map.mp hpiece
    exact getLast?_escapeChars f.toList
  · match fields, hlen with
    | first :: second :: fields, _ =>
        refine Js.trim_ne_empty (c := ',') ?_ rfl
        rw [csvRow_toList, List.map_cons, List.map_cons, List.intercalate_cons_cons, List.append_assoc]
        exact List.mem_append_right _ List.mem_cons_self

/-- **The lines of a text are its rows**, if no field has a line break. -/
theorem csvLines_csvText {header : String} {rows : List (List String)}
    (hheader : '\n' ∉ header.toList ∧ header.toList.getLast? ≠ some '\r' ∧ Js.trim header ≠ "")
    (hrows : ∀ fields ∈ rows, 2 ≤ fields.length ∧ ∀ f ∈ fields, '\n' ∉ f.toList) :
    csvLines (csvText header rows) = header :: rows.map csvRow := by
  have hlines : ∀ line ∈ header :: rows.map csvRow, '\n' ∉ line.toList ∧
      line.toList.getLast? ≠ some '\r' ∧ Js.trim line ≠ "" := by
    intro line hline
    rcases List.mem_cons.mp hline with rfl | hline
    · exact hheader
    · obtain ⟨fields, hfields, rfl⟩ := List.mem_map.mp hline
      exact csvRow_line (hrows fields hfields).1 (hrows fields hfields).2
  have hsplit : splitLines [] (csvText header rows).toList = header :: rows.map csvRow := by
    rw [csvText, String.toList_intercalate]
    have hintercalate : splitLines [] (['\n'].intercalate ((header :: rows.map csvRow).map String.toList)) =
        ((header :: rows.map csvRow).map String.toList).map String.ofList :=
      splitLines_intercalate (by simp) fun line hline => by
        obtain ⟨l, hl, rfl⟩ := List.mem_map.mp hline
        exact ⟨(hlines l hl).1, (hlines l hl).2.1⟩
    rw [show "\n".toList = ['\n'] from rfl, hintercalate, List.map_map]
    conv_rhs => rw [← List.map_id (header :: rows.map csvRow)]
    exact List.map_congr_left fun l _ => String.ofList_toList
  rw [csvLines, hsplit, List.filter_eq_self]
  exact fun line hline => decide_eq_true (hlines line hline).2.2

end OpcuaLight.Api
