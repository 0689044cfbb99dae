import OpcuaLight.Lib.Base64
import OpcuaLight.Lib.Chunks
import OpcuaLight.Lib.Js

/-!
# Certificates in PEM

`cert-utils.ts`: the text that `derToPem` writes, line by line (`derToPem_lines`), and that `pemToDer` reads it back,
for the bytes of any buffer.
-/

namespace OpcuaLight.Cert

/-! ## Buffers and strings -/

/-- `buffer.toString('base64')`. -/
def toBase64 (buffer : List UInt8) : String := String.ofList ((Base64.encode buffer).map Char.ofUInt8)

/-- The value of a character in base64, or in its alphabet for URLs. -/
def base64Value (c : Char) : Option ℕ :=
  if c = '-' then some 62 else if c = '_' then some 63 else if c.toNat < 128 then Base64.plainValue c.toUInt8 else none

/-- `Buffer.from(s, 'base64')`, which ends at the first `=` and skips what is no character of base64. -/
def fromBase64 (s : String) : List UInt8 := Base64.packed ((s.toList.takeWhile (· ≠ '=')).filterMap base64Value)

/-- `s.replace(/pattern/g, '')` for a plain text, after `skip` more characters of a match. -/
def removeFrom (pattern : List Char) : ℕ → List Char → List Char
  | _, [] => []
  | skip + 1, _ :: s => removeFrom pattern skip s
  | 0, c :: s =>
      if pattern.isPrefixOf (c :: s) then removeFrom pattern (pattern.length - 1) s else c :: removeFrom pattern 0 s

def removeAll (pattern s : String) : String := String.ofList (removeFrom pattern.toList 0 s.toList)

/-- `s.replace(/\s/g, '')`. -/
def removeSpace (s : String) : String := String.ofList (s.toList.filter (fun c => !Js.isSpace c))

/-! ## `cert-utils.ts` -/

def beginMarker : String := "-----BEGIN CERTIFICATE-----"

def endMarker : String := "-----END CERTIFICATE-----"

def pemHeader : String := beginMarker ++ "\n"

def pemFooter : String := endMarker ++ "\n"

def pemLineLength : ℕ := 64

/-- The lines that the loop pushes. -/
def pemLines (base64 : String) : List String := (Chunks.chunks pemLineLength base64.toList).map String.ofList

def derToPem (derBuffer : List UInt8) : String :=
  pemHeader ++ "\n".intercalate (pemLines (toBase64 derBuffer)) ++ "\n" ++ pemFooter

def pemToDer (pemString : String) : List UInt8 :=
  fromBase64 (removeSpace (removeAll endMarker (removeAll beginMarker pemString)))

/-! ## The lines of the text -/

/-- Lines, each of which a line feed ends. -/
def endedLines (lines : List String) : List Char := lines.flatMap (fun line => line.toList ++ ['\n'])

/-- A letter, a digit, `+`, `/` or `=`. -/
def IsBase64 (c : Char) : Prop := c.isAlphanum = true ∨ c = '+' ∨ c = '/' ∨ c = '='

/-- The lines between the markers: all have 64 characters of base64 but the last one, which has at most 64. -/
structure Body (base64 : String) (lines : List String) : Prop where
  full : ∀ line ∈ lines.dropLast, line.length = pemLineLength
  last : ∀ line ∈ lines.getLast?, line.length ≤ pemLineLength
  chars : ∀ line ∈ lines, ∀ c ∈ line.toList, IsBase64 c
  joined : (lines.map String.toList).flatten = base64.toList

/-- The body of the text: the empty buffer has one empty line. -/
def pemBody (base64 : String) : List String := if base64 = "" then [""] else pemLines base64

variable {der : List UInt8} {base64 : String}

/-- What is known of a character of the encoding. -/
structure Encoded (c : UInt8) : Prop where
  base64 : IsBase64 (Char.ofUInt8 c)
  noDash : Char.ofUInt8 c ≠ '-'
  noSpace : Js.isSpace (Char.ofUInt8 c) = false
  value : base64Value (Char.ofUInt8 c) = Base64.plainValue c

theorem encoded_of_mem {c : UInt8} (h : c ∈ Base64.encode der) : Encoded c := by
  have hall : ∀ n < 256, (Base64.IsPlain (.ofNat n) ∨ UInt8.ofNat n = Base64.pad) →
      IsBase64 (Char.ofUInt8 (.ofNat n)) ∧ Char.ofUInt8 (.ofNat n) ≠ '-' ∧
        Js.isSpace (Char.ofUInt8 (.ofNat n)) = false ∧
        base64Value (Char.ofUInt8 (.ofNat n)) = Base64.plainValue (.ofNat n) := by
    unfold Base64.IsPlain IsBase64
    decide +kernel
  have hc := hall c.toNat c.toNat_lt
  rw [UInt8.ofNat_toNat] at hc
  obtain ⟨hbase, hdash, hspace, hvalue⟩ := hc (Base64.plain_of_mem_encode h)
  exact ⟨hbase, hdash, hspace, hvalue⟩

theorem mem_toBase64 {c : Char} (h : c ∈ (toBase64 der).toList) : ∃ b, Encoded b ∧ Char.ofUInt8 b = c := by
  rw [toBase64, String.toList_ofList, List.mem_map] at h
  obtain ⟨b, hb, hc⟩ := h
  exact ⟨b, encoded_of_mem hb, hc⟩

theorem ofUInt8_eq_pad (c : UInt8) : Char.ofUInt8 c = '=' ↔ c = Base64.pad := by
  have hall : ∀ n < 256, Char.ofUInt8 (.ofNat n) = '=' ↔ UInt8.ofNat n = Base64.pad := by decide +kernel
  have hc := hall c.toNat c.toNat_lt
  rwa [UInt8.ofNat_toNat] at hc

theorem fromBase64_toBase64 (der : List UInt8) : fromBase64 (toBase64 der) = der := by
  have hunpadded : ((Base64.encode der).map Char.ofUInt8).takeWhile (· ≠ '=') =
      (Base64.unpadded (Base64.encode der)).map Char.ofUInt8 := by
    rw [List.takeWhile_map, Base64.unpadded]
    refine congrArg (fun p => (List.takeWhile p _).map _) (funext fun c => ?_)
    exact decide_eq_decide.mpr (not_congr (ofUInt8_eq_pad c))
  have hvalues : (Base64.unpadded (Base64.encode der)).filterMap (base64Value ∘ Char.ofUInt8) =
      (Base64.unpadded (Base64.encode der)).filterMap Base64.plainValue :=
    List.filterMap_congr fun c hc => (encoded_of_mem ((List.takeWhile_prefix _).subset hc)).value
  rw [fromBase64, toBase64, String.toList_ofList, hunpadded, List.filterMap_map, hvalues, Base64.packed_encode]

/-! ## The body -/

theorem pemLines_joined (base64 : String) : ((pemLines base64).map String.toList).flatten = base64.toList := by
  have hid : (String.toList ∘ String.ofList : List Char → List Char) = id := by
    funext cs
    exact String.toList_ofList
  rw [pemLines, List.map_map, hid, List.map_id, Chunks.flatten_chunks (by decide)]

theorem pemLines_eq_nil : pemLines base64 = [] ↔ base64 = "" := by
  rw [pemLines, List.map_eq_nil_iff, Chunks.chunks_eq_nil (by decide), String.toList_eq_nil_iff]

/-- A line is a chunk. -/
theorem pemLines_split {pre post : List String} {line : String} (h : pemLines base64 = pre ++ line :: post) :
    line.length ≤ pemLineLength ∧ line ≠ "" ∧ (post ≠ [] → line.length = pemLineLength) := by
  obtain ⟨cpre, crest, hchunks, rfl, hrest⟩ := List.map_eq_append_iff.mp h
  obtain ⟨chunk, cpost, rfl, rfl, rfl⟩ := List.map_eq_cons_iff.mp hrest
  obtain ⟨hle, hne, hfull⟩ := Chunks.length_chunk hchunks
  refine ⟨by rw [String.length_ofList]; exact hle, fun hempty => ?_, fun hpost => ?_⟩
  · rw [← String.toList_inj, String.toList_ofList] at hempty
    exact hne hempty
  · rw [String.length_ofList]
    exact hfull fun hnil => hpost (by rw [hnil]; rfl)

theorem body_pemLines (h : ∀ c ∈ base64.toList, IsBase64 c) : Body base64 (pemLines base64) where
  full := by
    intro line hline
    obtain ⟨pre, post, hsplit⟩ := List.append_of_mem hline
    have hne : pemLines base64 ≠ [] := by
      intro hnil
      rw [hnil] at hline
      cases hline
    have hall := List.dropLast_append_getLast hne
    rw [hsplit, List.append_assoc, List.cons_append] at hall
    exact (pemLines_split hall.symm).2.2 (List.append_ne_nil_of_right_ne_nil _ (List.cons_ne_nil _ _))
  last := by
    intro line hline
    obtain ⟨pre, hsplit⟩ := List.getLast?_eq_some_iff.mp hline
    exact (pemLines_split hsplit).1
  chars := by
    intro line hline c hc
    refine h c ?_
    rw [← pemLines_joined base64]
    exact List.mem_flatten.mpr ⟨line.toList, List.mem_map.mpr ⟨line, hline, rfl⟩, hc⟩
  joined := pemLines_joined base64

theorem body_pemBody (h : ∀ c ∈ base64.toList, IsBase64 c) : Body base64 (pemBody base64) := by
  unfold pemBody
  split_ifs with hempty
  · rw [hempty]
    exact ⟨by simp, by simp, by simp, by simp⟩
  · exact body_pemLines h

theorem pemBody_ne_nil : pemBody base64 ≠ [] := by
  unfold pemBody
  split_ifs with hempty
  · exact List.cons_ne_nil _ _
  · exact fun hnil => hempty (pemLines_eq_nil.mp hnil)

/-- What is written between the markers. -/
theorem joined_body (base64 : String) : ("\n".intercalate (pemLines base64)).toList ++ ['\n'] =
    endedLines (pemBody base64) := by
  unfold pemBody
  split_ifs with hempty
  · rw [pemLines_eq_nil.mpr hempty]
    rfl
  · have hne : (pemLines base64).map String.toList ≠ [] := by
      rw [Ne, List.map_eq_nil_iff, pemLines_eq_nil]
      exact hempty
    rw [String.toList_intercalate]
    exact (Chunks.ended_intercalate '\n' hne).trans (List.flatMap_map _ _ _)

theorem endedLines_append (ls ls' : List String) : endedLines (ls ++ ls') = endedLines ls ++ endedLines ls' :=
  List.flatMap_append

theorem endedLines_singleton (line : String) : endedLines [line] = line.toList ++ ['\n'] := List.append_nil _

/-- The whole text. -/
theorem derToPem_toList (der : List UInt8) : (derToPem der).toList =
    endedLines ([beginMarker] ++ pemBody (toBase64 der) ++ [endMarker]) := by
  rw [endedLines_append, endedLines_append, ← joined_body, endedLines_singleton, endedLines_singleton]
  simp only [derToPem, pemHeader, pemFooter, String.toList_append, List.append_assoc]
  rfl

/-! ## Removing the markers -/

section Remove
variable {d : Char} {pattern s t : List Char}

theorem removeFrom_skip (pattern : List Char) (skip : ℕ) (s : List Char) :
    removeFrom pattern skip s = removeFrom pattern 0 (s.drop skip) := by
  induction skip generalizing s with
  | zero => rfl
  | succ skip ih =>
      cases s with
      | nil => rfl
      | cons c s => exact ih s

theorem removeFrom_match (s : List Char) :
    removeFrom (d :: pattern) 0 (d :: pattern ++ s) = removeFrom (d :: pattern) 0 s := by
  have hmatch : (d :: pattern).isPrefixOf (d :: (pattern ++ s)) = true :=
    List.isPrefixOf_iff_prefix.mpr (List.prefix_append (d :: pattern) s)
  rw [List.cons_append, removeFrom, if_pos hmatch, removeFrom_skip, List.length_cons, Nat.add_sub_cancel,
    List.drop_left]

/-- What has no first character of the pattern is kept. -/
theorem removeFrom_keep (h : d ∉ s) : removeFrom (d :: pattern) 0 (s ++ t) = s ++ removeFrom (d :: pattern) 0 t := by
  induction s with
  | nil => rfl
  | cons c s ih =>
      have hne : ¬ (d :: pattern).isPrefixOf (c :: (s ++ t)) = true := by
        rw [List.isPrefixOf_iff_prefix, List.cons_prefix_cons]
        exact fun hmatch => h (hmatch.1 ▸ List.mem_cons_self)
      rw [List.cons_append, removeFrom, if_neg hne, ih fun hmem => h (List.mem_cons_of_mem c hmem)]
      rfl

end Remove

/-- The lines of a body without their ends. -/
theorem filter_endedLines {lines : List String} (h : ∀ line ∈ lines, ∀ c ∈ line.toList, Js.isSpace c = false) :
    (endedLines lines).filter (fun c => !Js.isSpace c) = (lines.map String.toList).flatten := by
  induction lines with
  | nil => rfl
  | cons line lines ih =>
      have hline : line.toList.filter (fun c => !Js.isSpace c) = line.toList :=
        List.filter_eq_self.mpr fun c hc => by rw [h line List.mem_cons_self c hc]; rfl
      have hfeed : ['\n'].filter (fun c => !Js.isSpace c) = [] := by decide
      rw [endedLines, List.flatMap_cons, List.filter_append, List.filter_append, hline, hfeed, List.append_nil,
        List.map_cons, List.flatten_cons]
      exact congrArg _ (ih fun line hmem => h line (List.mem_cons_of_mem _ hmem))

theorem pemToDer_derToPem (der : List UInt8) : pemToDer (derToPem der) = der := by
  have hbody := body_pemBody (fun c hc => by
    obtain ⟨b, hb, rfl⟩ := mem_toBase64 hc
    exact hb.base64 : ∀ c ∈ (toBase64 der).toList, IsBase64 c)
  have hmem : ∀ line ∈ pemBody (toBase64 der), ∀ c ∈ line.toList, ∃ b, Encoded b ∧ Char.ofUInt8 b = c := by
    intro line hline c hc
    have hin : c ∈ (toBase64 der).toList := by
      rw [← hbody.joined]
      exact List.mem_flatten.mpr ⟨line.toList, List.mem_map.mpr ⟨line, hline, rfl⟩, hc⟩
    exact mem_toBase64 hin
  have hdash : '-' ∉ '\n' :: endedLines (pemBody (toBase64 der)) := by
    intro hin
    rcases List.mem_cons.mp hin with hin | hin
    · exact absurd hin (by decide)
    obtain ⟨line, hline, hin⟩ := List.mem_flatMap.mp hin
    rcases List.mem_append.mp hin with hin | hin
    · obtain ⟨b, hb, hchar⟩ := hmem line hline _ hin
      exact hb.noDash hchar
    · exact absurd (List.mem_singleton.mp hin) (by decide)
  have htext : (derToPem der).toList = beginMarker.toList ++
      ('\n' :: endedLines (pemBody (toBase64 der)) ++ (endMarker.toList ++ ['\n'])) := by
    rw [derToPem_toList, endedLines_append, endedLines_append, endedLines_singleton, endedLines_singleton]
    simp only [List.append_assoc]
    rfl
  have hbegin : (removeAll beginMarker (derToPem der)).toList =
      '\n' :: endedLines (pemBody (toBase64 der)) ++ (endMarker.toList ++ ['\n']) := by
    rw [removeAll, htext, String.toList_ofList]
    refine (removeFrom_match _).trans ((removeFrom_keep hdash).trans (congrArg _ ?_))
    decide
  have hend : (removeAll endMarker (removeAll beginMarker (derToPem der))).toList =
      '\n' :: endedLines (pemBody (toBase64 der)) ++ ['\n'] := by
    rw [removeAll, hbegin, String.toList_ofList]
    exact (removeFrom_keep hdash).trans (congrArg _ (removeFrom_match _))
  have hspace : removeSpace (removeAll endMarker (removeAll beginMarker (derToPem der))) = toBase64 der := by
    rw [← String.toList_inj, removeSpace, String.toList_ofList, hend, List.filter_append, List.filter_cons_of_neg
      (by decide), filter_endedLines, hbody.joined]
    · exact List.append_nil _
    · intro line hline c hc
      obtain ⟨b, hb, rfl⟩ := hmem line hline c hc
      exact hb.noSpace
  rw [pemToDer, hspace, fromBase64_toBase64]

/-- **Certificates in PEM.** For the bytes of any buffer, `pemToDer` reads back what `derToPem` writes, and that is
the line of the BEGIN marker, the lines of the body, and the line of the END marker, each ended by a line feed. -/
theorem derToPem_codec (der : List UInt8) : pemToDer (derToPem der) = der ∧
    ∃ lines, lines ≠ [] ∧ Body (toBase64 der) lines ∧
      (derToPem der).toList = endedLines ([beginMarker] ++ lines ++ [endMarker]) :=
  ⟨pemToDer_derToPem der, pemBody (toBase64 der), pemBody_ne_nil, body_pemBody fun c hc => by
    obtain ⟨b, hb, rfl⟩ := mem_toBase64 hc
    exact hb.base64, derToPem_toList der⟩

end OpcuaLight.Cert
