import Logistics.DecimalText
import Mathlib.Data.List.Basic

namespace Logistics.JsonText

open List Option

/-- A document with numbers of type `N`. A character of a text stands for one byte. -/
inductive Doc (N : Type)
  | null
  | bool (value : Bool)
  | number (value : N)
  | string (value : String)
  | array (items : List (Doc N))
  | object (fields : List (String × Doc N))

variable {N α : Type}

def Doc.item (tree : Doc N) (key : String) : Option (Doc N) :=
  match tree with
  | .object fields => (fields.find? fun f => f.1 = key).map Prod.snd
  | _ => none

def Doc.text : Doc N → Option String
  | .string value => some value
  | _ => none

def Doc.int : Doc Int → Option Int
  | .number value => some value
  | _ => none

def Doc.textItem (root : Doc N) (key : String) : Option String := (root.item key).bind Doc.text

def Doc.intItem (root : Doc Int) (key : String) : Option Int := (root.item key).bind Doc.int

def isNumeric (c : Char) : Bool := c.isDigit ∨ c ∈ ['+', '-', '.', 'e', 'E']

class NumberText (N : Type) where
  text : N → List Char
  read : List Char → Option N
  text_ne_nil : ∀ n, text n ≠ []
  isNumeric_text : ∀ n, ∀ c ∈ text n, isNumeric c
  read_text : ∀ n, read (text n) = some n

def escape (c : Char) : List Char :=
  if c = '"' then ['\\', '"']
  else if c = '\\' then ['\\', '\\']
  else if c = '\x08' then ['\\', 'b']
  else if c = '\x0c' then ['\\', 'f']
  else if c = '\n' then ['\\', 'n']
  else if c = '\r' then ['\\', 'r']
  else if c = '\t' then ['\\', 't']
  else if c.toNat < 32 then "\\u00".toList ++ [Nat.digitChar (c.toNat / 16), Nat.digitChar (c.toNat % 16)]
  else [c]

def printString (text : String) : List Char := '"' :: text.toList.flatMap escape ++ ['"']

mutual
def printUnformatted [NumberText N] : Doc N → List Char
  | .null => "null".toList
  | .bool value => if value then "true".toList else "false".toList
  | .number value => NumberText.text value
  | .string value => printString value
  | .array items => '[' :: [','].intercalate (printItems items) ++ [']']
  | .object fields => '\x7b' :: [','].intercalate (printFields fields) ++ ['\x7d']

def printItems [NumberText N] : List (Doc N) → List (List Char)
  | [] => []
  | item :: items => printUnformatted item :: printItems items

def printFields [NumberText N] : List (String × Doc N) → List (List Char)
  | [] => []
  | (key, value) :: fields => (printString key ++ ':' :: printUnformatted value) :: printFields fields
end

section Printing

variable [NumberText N]

theorem printItems_eq (items : List (Doc N)) : printItems items = items.map printUnformatted := by
  induction items with
  | nil => rfl
  | cons item items ih => exact congrArg (printUnformatted item :: ·) ih

theorem printFields_eq (fields : List (String × Doc N)) :
    printFields fields = fields.map fun f => printString f.1 ++ ':' :: printUnformatted f.2 := by
  induction fields with
  | nil => rfl
  | cons f fields ih => exact congrArg (_ :: ·) ih

theorem printUnformatted_array (items : List (Doc N)) :
    printUnformatted (.array items) = '[' :: [','].intercalate (items.map printUnformatted) ++ [']'] := by
  rw [← printItems_eq]
  rfl

theorem printUnformatted_object (fields : List (String × Doc N)) :
    printUnformatted (.object fields) = '\x7b' :: [','].intercalate
      (fields.map fun f => printString f.1 ++ ':' :: printUnformatted f.2) ++ ['\x7d'] := by
  rw [← printFields_eq]
  rfl

@[simp]
theorem printUnformatted_string (value : String) :
    printUnformatted (.string value : Doc N) = printString value :=
  rfl

@[simp]
theorem printUnformatted_number (value : N) :
    printUnformatted (.number value) = NumberText.text value :=
  rfl

@[simp]
theorem printUnformatted_bool (value : Bool) :
    printUnformatted (.bool value : Doc N) = if value then "true".toList else "false".toList :=
  rfl

end Printing

def Unescaped (text : String) : Prop := ∀ c ∈ text.toList, escape c = [c]

instance : DecidablePred Unescaped := fun text => List.decidableBAll (fun c => escape c = [c]) text.toList

theorem escape_eq_self_iff {c : Char} : escape c = [c] ↔ c ≠ '"' ∧ c ≠ '\\' ∧ 32 ≤ c.toNat := by
  constructor
  · intro h
    refine ⟨?_, ?_, ?_⟩
    · rintro rfl
      exact absurd h (by decide)
    · rintro rfl
      exact absurd h (by decide)
    · by_contra hlow
      have hall : ∀ n < 32, escape (Char.ofNat n) ≠ [Char.ofNat n] := by decide
      exact hall c.toNat (Nat.not_le.mp hlow) (by rwa [Char.ofNat_toNat])
  · rintro ⟨hquote, hbackslash, hlow⟩
    have hne (d : Char) (hd : d.toNat < 32) : c ≠ d := by
      rintro rfl
      omega
    rw [escape, if_neg hquote, if_neg hbackslash, if_neg (hne _ (by decide)), if_neg (hne _ (by decide)),
      if_neg (hne _ (by decide)), if_neg (hne _ (by decide)), if_neg (hne _ (by decide)), if_neg (by omega)]

theorem escape_of_isDigit {c : Char} (h : c.isDigit) : escape c = [c] := by
  have hbounds := DecimalText.isDigit_bounds h
  refine escape_eq_self_iff.mpr ⟨?_, ?_, by omega⟩
  · rintro rfl
    exact absurd h (by decide)
  · rintro rfl
    exact absurd h (by decide)

theorem flatMap_escape {text : String} (h : Unescaped text) : text.toList.flatMap escape = text.toList := by
  rw [flatMap_def, map_congr_left h]
  exact flatMap_singleton' text.toList

def isBlank (c : Char) : Bool := c ∈ [' ', '\t', '\n', '\r']

def expect (c : Char) (text : List Char) : Option (List Char) :=
  match text.dropWhile isBlank with
  | [] => none
  | d :: rest => if d = c then some rest else none

def hexDigit (c : Char) : Option Nat :=
  if c.isDigit then some (c.toNat - 48)
  else if 97 ≤ c.toNat ∧ c.toNat ≤ 102 then some (c.toNat - 87)
  else if 65 ≤ c.toNat ∧ c.toNat ≤ 70 then some (c.toNat - 55)
  else none

def readHex : List Char → Option (Char × List Char)
  | a :: b :: c :: d :: rest =>
    match hexDigit a, hexDigit b, hexDigit c, hexDigit d with
    | some 0, some 0, some high, some low => if high < 8 then some (Char.ofNat (16 * high + low), rest) else none
    | _, _, _, _ => none
  | _ => none

/-- What follows a backslash. Characters from 128 on are not written by their number. -/
def readEscape : List Char → Option (Char × List Char)
  | [] => none
  | c :: rest =>
    if c = '"' ∨ c = '\\' ∨ c = '/' then some (c, rest)
    else if c = 'b' then some ('\x08', rest)
    else if c = 'f' then some ('\x0c', rest)
    else if c = 'n' then some ('\n', rest)
    else if c = 'r' then some ('\r', rest)
    else if c = 't' then some ('\t', rest)
    else if c = 'u' then readHex rest
    else none

theorem readHex_eq_some {text rest : List Char} {d : Char} (h : readHex text = some (d, rest)) :
    ∃ used, text = used ++ rest ∧ '"' ∉ used := by
  unfold readHex at h
  split at h
  · next a b x y tail =>
    split at h
    · next ha hb hx hy =>
      split at h
      · cases h
        refine ⟨[a, b, x, y], rfl, fun hmem => ?_⟩
        have hquote : hexDigit '"' = none := by decide
        simp only [mem_cons, not_mem_nil, or_false] at hmem
        rcases hmem with rfl | rfl | rfl | rfl <;> simp_all
      · cases h
    · cases h
  · cases h

/-- An escape that contains a quote stands for one. -/
theorem readEscape_eq_some {text rest : List Char} {d : Char} (h : readEscape text = some (d, rest)) :
    ∃ used, text = used ++ rest ∧ used ≠ [] ∧ (d ≠ '"' → '"' ∉ used) := by
  cases text with
  | nil => cases h
  | cons c tail =>
    rw [readEscape] at h
    have hone (e : Char) (he : c = '"' → e = '"') (h : some (e, tail) = some (d, rest)) :
        ∃ used, c :: tail = used ++ rest ∧ used ≠ [] ∧ (d ≠ '"' → '"' ∉ used) := by
      cases h
      exact ⟨[c], rfl, cons_ne_nil _ _, fun hd hmem => hd (he (mem_singleton.mp hmem).symm)⟩
    split_ifs at h with hself hb hf hn hr ht hu
    · exact hone c id h
    all_goals have hquote : c ≠ '"' := fun he => hself (.inl he)
    iterate 5 exact hone _ (fun he => absurd he hquote) h
    · obtain ⟨used, rfl, hused⟩ := readHex_eq_some h
      exact ⟨c :: used, rfl, cons_ne_nil _ _, fun _ => not_mem_cons_of_ne_of_not_mem hquote.symm hused⟩

theorem length_readEscape {text : List Char} {r : Char × List Char} (h : readEscape text = some r) :
    r.2.length < text.length := by
  obtain ⟨used, rfl, hused, -⟩ := readEscape_eq_some h
  rw [length_append]
  have := length_pos_iff.mpr hused
  omega

def readChars : List Char → Option (List Char × List Char)
  | [] => none
  | c :: rest =>
    if c = '"' then some ([], rest)
    else if c = '\\' then
      match h : readEscape rest with
      | none => none
      | some r =>
        have := length_readEscape h
        (readChars r.2).map fun s => (r.1 :: s.1, s.2)
    else if c.toNat < 32 then none
    else (readChars rest).map fun s => (c :: s.1, s.2)
termination_by text => text.length

variable {c : Char} {text rest tail : List Char}

theorem readChars_cons : readChars (c :: rest) =
    if c = '"' then some ([], rest)
    else if c = '\\' then (readEscape rest).bind fun r => (readChars r.2).map fun s => (r.1 :: s.1, s.2)
    else if c.toNat < 32 then none
    else (readChars rest).map fun s => (c :: s.1, s.2) := by
  rw [readChars]
  split_ifs
  · rfl
  · split <;> simp [*]
  · rfl
  · rfl

theorem readChars_quote : readChars ('"' :: rest) = some ([], rest) := by
  rw [readChars_cons, if_pos rfl]

theorem readChars_backslash : readChars ('\\' :: rest) =
    (readEscape rest).bind fun r => (readChars r.2).map fun s => (r.1 :: s.1, s.2) := by
  rw [readChars_cons, if_neg (by decide), if_pos rfl]

theorem readChars_plain (h : escape c = [c]) :
    readChars (c :: rest) = (readChars rest).map fun s => (c :: s.1, s.2) := by
  obtain ⟨hquote, hbackslash, hlow⟩ := escape_eq_self_iff.mp h
  rw [readChars_cons, if_neg hquote, if_neg hbackslash, if_neg (by omega)]

theorem readChars_control (hquote : c ≠ '"') (hbackslash : c ≠ '\\') (h : escape c ≠ [c]) :
    readChars (c :: rest) = none := by
  rw [readChars_cons, if_neg hquote, if_neg hbackslash, if_pos]
  by_contra hlow
  exact h (escape_eq_self_iff.mpr ⟨hquote, hbackslash, by omega⟩)

theorem readHex_control (h : c.toNat < 32) : readHex ('0' :: '0' :: Nat.digitChar (c.toNat / 16) ::
    Nat.digitChar (c.toNat % 16) :: rest) = some (c, rest) := by
  have hall : ∀ n < 32, hexDigit (Nat.digitChar (n / 16)) = some (n / 16) ∧
      hexDigit (Nat.digitChar (n % 16)) = some (n % 16) := by decide
  obtain ⟨hhigh, hlow⟩ := hall c.toNat h
  have hzero : hexDigit '0' = some 0 := by decide
  have hchar : 16 * (c.toNat / 16) + c.toNat % 16 = c.toNat := Nat.div_add_mod _ _
  simp only [readHex, hzero, hhigh, hlow, hchar, Char.ofNat_toNat]
  rw [if_pos (by omega)]

theorem readChars_escape (c : Char) (rest : List Char) :
    readChars (escape c ++ rest) = (readChars rest).map fun s => (c :: s.1, s.2) := by
  have hread {e : List Char} (h : readEscape (e ++ rest) = some (c, rest)) :
      readChars ('\\' :: e ++ rest) = (readChars rest).map fun s => (c :: s.1, s.2) := by
    rw [cons_append, readChars_backslash, h, bind_some]
  unfold escape
  split_ifs with h1 h2 h3 h4 h5 h6 h7 h8
  · exact hread (by rw [h1]; rfl)
  · exact hread (by rw [h2]; rfl)
  · exact hread (by rw [h3]; rfl)
  · exact hread (by rw [h4]; rfl)
  · exact hread (by rw [h5]; rfl)
  · exact hread (by rw [h6]; rfl)
  · exact hread (by rw [h7]; rfl)
  · exact hread (readHex_control h8)
  · exact readChars_plain (escape_eq_self_iff.mpr ⟨h1, h2, Nat.not_lt.mp h8⟩)

theorem readChars_flatMap (text rest : List Char) :
    readChars (text.flatMap escape ++ '"' :: rest) = some (text, rest) := by
  induction text with
  | nil => exact readChars_quote
  | cons c text ih => rw [flatMap_cons, append_assoc, readChars_escape, ih, map_some]

theorem readChars_escaped {x : Char} {read : List Char} (hx : x ≠ '"')
    (h : readChars ('\\' :: (text ++ '"' :: rest)) = some (x :: read, tail)) :
    ∃ used more, text = used ++ more ∧ used ≠ [] ∧ '"' ∉ used ∧
      readChars (more ++ '"' :: rest) = some (read, tail) := by
  rw [readChars_backslash, bind_eq_some_iff] at h
  obtain ⟨⟨d, after⟩, hr, h⟩ := h
  obtain ⟨s, hs, he⟩ := map_eq_some_iff.mp h
  cases he
  obtain ⟨used, hused, hne, hfree⟩ := readEscape_eq_some hr
  rcases append_eq_append_iff.mp hused with ⟨more, rfl, hmore⟩ | ⟨more, rfl, rfl⟩
  · cases more with
    | nil =>
      rw [append_nil] at hne hfree
      exact ⟨text, [], (append_nil _).symm, hne, hfree hx, (congrArg readChars hmore).trans hs⟩
    | cons c more =>
      cases hmore
      exact absurd (by simp) (hfree hx)
  · exact ⟨used, more, rfl, hne, hfree hx, hs⟩

/-- Once a reading is ahead of what it has read so far, it never comes out even. -/
theorem readChars_ahead {ahead : List Char} (hne : ahead ≠ []) (hquote : '"' ∉ ahead) :
    readChars (text ++ '"' :: rest) ≠ some (ahead ++ text, tail) := by
  induction hn : text.length using Nat.strong_induction_on generalizing text ahead with
  | _ n ih =>
    subst hn
    obtain ⟨x, ahead, rfl⟩ := exists_cons_of_ne_nil hne
    obtain ⟨hx, hquote⟩ := not_or.mp (mt mem_cons.mpr hquote)
    intro h
    cases text with
    | nil =>
      rw [nil_append, readChars_quote] at h
      cases h
    | cons c text =>
      rw [cons_append] at h
      by_cases hplain : escape c = [c]
      · rw [readChars_plain hplain, map_eq_some_iff] at h
        obtain ⟨r, hr, he⟩ := h
        refine ih text.length (by simp) (by simp : ahead ++ [c] ≠ []) ?_ rfl (hr.trans ?_)
        · simpa [hquote] using (escape_eq_self_iff.mp hplain).1.symm
        · simp_all [Prod.ext_iff]
      by_cases hc : c = '"'
      · rw [hc, readChars_quote] at h
        cases h
      by_cases hb : c = '\\'
      · subst hb
        obtain ⟨used, more, rfl, -, hfree, hread⟩ := readChars_escaped (fun he => hx he.symm) h
        refine ih more.length (by grind) (by simp : ahead ++ '\\' :: used ≠ []) ?_ rfl (hread.trans (by simp))
        simp [hquote, hfree]
      · rw [readChars_control hc hb hplain] at h
        cases h

/-- A text between quotes is read as itself exactly when it has nothing to escape. -/
theorem readChars_raw_iff :
    readChars (text ++ '"' :: rest) = some (text, tail) ↔ (∀ c ∈ text, escape c = [c]) ∧ rest = tail := by
  induction text with
  | nil => simp [readChars_quote]
  | cons c text ih =>
    rw [cons_append, forall_mem_cons, and_assoc, ← ih]
    by_cases hplain : escape c = [c]
    · simp [readChars_plain hplain, hplain, Prod.ext_iff, map_eq_some_iff]
    · refine iff_of_false (fun h => ?_) fun h => hplain h.1
      by_cases hc : c = '"'
      · rw [hc, readChars_quote] at h
        cases h
      by_cases hb : c = '\\'
      · subst hb
        obtain ⟨used, more, rfl, hne, hfree, hread⟩ := readChars_escaped (by decide) h
        exact readChars_ahead hne hfree hread
      · rw [readChars_control hc hb hplain] at h
        cases h

def readField (value : List Char → Option (α × List Char)) (text : List Char) : Option ((String × α) × List Char) :=
  (expect '"' text).bind fun text => (readChars text).bind fun key =>
    (expect ':' key.2).bind fun text => (value text).map fun r => ((String.ofList key.1, r.1), r.2)

def readSeq (item : List Char → Option (α × List Char)) (close : Char) : Nat → List Char → Option (List α × List Char)
  | 0, _ => none
  | fuel + 1, text =>
    (item text).bind fun r =>
      match expect close r.2 with
      | some rest => some ([r.1], rest)
      | none => (expect ',' r.2).bind fun rest => (readSeq item close fuel rest).map fun s => (r.1 :: s.1, s.2)

def readList (item : List Char → Option (α × List Char)) (close : Char) (text : List Char) :
    Option (List α × List Char) :=
  match expect close text with
  | some rest => some ([], rest)
  | none => readSeq item close text.length text

def readWord (text : List Char) : Option (Doc N × List Char) :=
  ([(['n', 'u', 'l', 'l'], .null), (['t', 'r', 'u', 'e'], .bool true),
    (['f', 'a', 'l', 's', 'e'], .bool false)].find? fun w => w.1.isPrefixOf text).map
    fun w => (w.2, text.drop w.1.length)

def readValue [NumberText N] : Nat → List Char → Option (Doc N × List Char)
  | 0, _ => none
  | depth + 1, text =>
    match text.dropWhile isBlank with
    | [] => none
    | c :: rest =>
      if c = '"' then (readChars rest).map fun r => (.string (String.ofList r.1), r.2)
      else if c = '[' then (readList (readValue depth) ']' rest).map fun r => (.array r.1, r.2)
      else if c = '\x7b' then (readList (readField (readValue depth)) '\x7d' rest).map fun r => (.object r.1, r.2)
      else if isNumeric c then
        (NumberText.read ((c :: rest).takeWhile isNumeric)).map fun n => (.number n, (c :: rest).dropWhile isNumeric)
      else readWord (c :: rest)

def nestingLimit : Nat := 1000

def readDocument [NumberText N] (text : List Char) : Option (Doc N) :=
  (readValue nestingLimit text).bind fun r => if r.2.all isBlank then some r.1 else none

theorem expect_eq {d : Char} (hd : isBlank d = false) (c : Char) (rest : List Char) :
    expect c (d :: rest) = if d = c then some rest else none := by
  rw [expect, dropWhile_cons_of_neg (by simp [hd])]

theorem not_isBlank_of_isNumeric (h : isNumeric c) : isBlank c = false := by
  by_contra hblank
  simp only [isBlank, mem_cons, not_mem_nil, or_false, Bool.not_eq_false, decide_eq_true_eq] at hblank
  rcases hblank with rfl | rfl | rfl | rfl <;> exact absurd h (by decide)

def Stops (text : List Char) : Prop := ∀ c ∈ text.head?, isNumeric c = false

/-- What the printer writes for the tree is read back, whatever follows it. -/
def Readable [NumberText N] (depth : Nat) (tree : Doc N) : Prop :=
  ∀ rest, Stops rest → readValue depth (printUnformatted tree ++ rest) = some (tree, rest)

variable [NumberText N] {depth : Nat}

theorem readValue_cons (hblank : isBlank c = false) : readValue (N := N) (depth + 1) (c :: rest) =
    if c = '"' then (readChars rest).map fun r => (.string (String.ofList r.1), r.2)
    else if c = '[' then (readList (readValue depth) ']' rest).map fun r => (.array r.1, r.2)
    else if c = '\x7b' then (readList (readField (readValue depth)) '\x7d' rest).map fun r => (.object r.1, r.2)
    else if isNumeric c then
      (NumberText.read ((c :: rest).takeWhile isNumeric)).map fun n => (.number n, (c :: rest).dropWhile isNumeric)
    else readWord (c :: rest) := by
  rw [readValue, dropWhile_cons_of_neg (by simp [hblank])]

theorem readValue_quote (depth : Nat) (text : List Char) : readValue (N := N) (depth + 1) ('"' :: text) =
    (readChars text).map fun r => (.string (String.ofList r.1), r.2) := by
  rw [readValue_cons (by decide), if_pos rfl]

theorem readValue_bracket (depth : Nat) (text : List Char) : readValue (N := N) (depth + 1) ('[' :: text) =
    (readList (readValue depth) ']' text).map fun r => (.array r.1, r.2) := by
  rw [readValue_cons (by decide), if_neg (by decide), if_pos rfl]

theorem readValue_brace (depth : Nat) (text : List Char) : readValue (N := N) (depth + 1) ('\x7b' :: text) =
    (readList (readField (readValue depth)) '\x7d' text).map fun r => (.object r.1, r.2) := by
  rw [readValue_cons (by decide), if_neg (by decide), if_neg (by decide), if_pos rfl]

@[simp]
theorem readable_string (depth : Nat) (value : String) : Readable (N := N) (depth + 1) (.string value) := by
  intro rest _
  rw [printUnformatted_string, printString, cons_append, cons_append, append_assoc, readValue_quote,
    singleton_append, readChars_flatMap, map_some, String.ofList_toList]

@[simp]
theorem readable_number (depth : Nat) (value : N) : Readable (depth + 1) (.number value) := by
  intro rest hstops
  obtain ⟨c, text, htext⟩ := exists_cons_of_ne_nil (NumberText.text_ne_nil value)
  have hall := NumberText.isNumeric_text value
  have hc : isNumeric c = true := hall c (by rw [htext]; exact mem_cons_self)
  have hne (d : Char) (hd : isNumeric d = false) : c ≠ d := fun he => by rw [he, hd] at hc; cases hc
  have htake : (NumberText.text value ++ rest).takeWhile isNumeric = NumberText.text value := by
    rw [takeWhile_append_of_pos hall]
    cases rest with
    | nil => simp
    | cons d rest => simp [hstops d rfl]
  have hdrop : (NumberText.text value ++ rest).dropWhile isNumeric = rest := by
    rw [dropWhile_append_of_pos hall]
    cases rest with
    | nil => rfl
    | cons d rest => exact dropWhile_cons_of_neg (by simp [hstops d rfl])
  rw [printUnformatted_number]
  rw [htext, cons_append] at htake hdrop ⊢
  rw [readValue_cons (not_isBlank_of_isNumeric hc), if_neg (hne '"' (by decide)), if_neg (hne '[' (by decide)),
    if_neg (hne '\x7b' (by decide)), if_pos hc, htake, hdrop, ← htext, NumberText.read_text, map_some]

@[simp]
theorem readable_bool (depth : Nat) (value : Bool) : Readable (N := N) (depth + 1) (.bool value) := by
  intro rest _
  cases value <;> simp [readValue_cons, isBlank, isNumeric, readWord]

section Sequences

variable {β : Type} {item : List Char → Option (α × List Char)} {close : Char} {fuel : Nat} {a : α}

theorem readSeq_cons (hclose : close ≠ ',') (h : item (text ++ ',' :: rest) = some (a, ',' :: rest)) :
    readSeq item close (fuel + 1) (text ++ ',' :: rest) =
      (readSeq item close fuel rest).map fun s => (a :: s.1, s.2) := by
  rw [readSeq, h, bind_some, expect_eq (by decide), if_neg hclose.symm, expect_eq (by decide), if_pos rfl]
  rfl

theorem readSeq_last (hclose : isBlank close = false) (h : item (text ++ close :: rest) = some (a, close :: rest)) :
    readSeq item close (fuel + 1) (text ++ close :: rest) = some ([a], rest) := by
  rw [readSeq, h, bind_some, expect_eq hclose, if_pos rfl]

theorem head?_readSeq {as : List α} (h : readSeq item close fuel text = some (as, tail)) :
    ∃ r, item text = some r ∧ as.head? = some r.1 := by
  cases fuel with
  | zero => cases h
  | succ fuel =>
    rw [readSeq, bind_eq_some_iff] at h
    obtain ⟨r, hr, h⟩ := h
    refine ⟨r, hr, ?_⟩
    split at h
    · cases h
      rfl
    · obtain ⟨_, _, h⟩ := bind_eq_some_iff.mp h
      obtain ⟨_, _, h⟩ := map_eq_some_iff.mp h
      cases h
      rfl

theorem stops_cons (h : isNumeric c = false) : Stops (c :: rest) := fun d hd => by
  cases hd
  exact h

theorem readSeq_map (hcomma : close ≠ ',') (hblank : isBlank close = false) (hnumeric : isNumeric close = false)
    (text : β → List Char) (value : β → α) (b : β) {items : List β}
    (h : ∀ x ∈ b :: items, ∀ rest, Stops rest → item (text x ++ rest) = some (value x, rest)) (rest : List Char)
    (hfuel : items.length < fuel) : readSeq item close fuel
      ([','].intercalate ((b :: items).map text) ++ close :: rest) = some ((b :: items).map value, rest) := by
  induction items generalizing b fuel with
  | nil =>
    obtain ⟨fuel, rfl⟩ := Nat.exists_eq_add_one.mpr hfuel
    rw [map_singleton, intercalate_singleton]
    exact readSeq_last hblank (h b mem_cons_self _ (stops_cons hnumeric))
  | cons b' items ih =>
    obtain ⟨fuel, rfl⟩ := Nat.exists_eq_add_one.mpr (Nat.zero_lt_of_lt hfuel)
    obtain ⟨hb, h⟩ := forall_mem_cons.mp h
    rw [map_cons, map_cons, intercalate_cons_cons, append_assoc, append_assoc,
      singleton_append, readSeq_cons hcomma (hb _ (stops_cons (by decide))), ← map_cons,
      ih b' h (Nat.lt_of_succ_lt_succ hfuel)]
    rfl

theorem length_le_intercalate {sep : List Char} (hsep : 0 < sep.length) (texts : List (List Char)) :
    texts.length ≤ (sep.intercalate texts).length + 1 := by
  induction texts with
  | nil => simp
  | cons t texts ih =>
    cases texts with
    | nil => simp
    | cons t' texts =>
      rw [intercalate_cons_cons, length_cons, length_append, length_append]
      omega

theorem readList_map (hcomma : close ≠ ',') (hblank : isBlank close = false) (hnumeric : isNumeric close = false)
    (text : β → List Char) (value : β → α) {items : List β}
    (h : ∀ b ∈ items, ∀ rest, Stops rest → item (text b ++ rest) = some (value b, rest))
    (hstart : ∀ b ∈ items, ∀ rest, expect close (text b ++ rest) = none) (rest : List Char) :
    readList item close ([','].intercalate (items.map text) ++ close :: rest) = some (items.map value, rest) := by
  cases items with
  | nil =>
    rw [readList, map_nil, intercalate_nil, nil_append, expect_eq hblank, if_pos rfl]
    rfl
  | cons b items =>
    have hnone : expect close ([','].intercalate ((b :: items).map text) ++ close :: rest) = none := by
      cases items with
      | nil => simpa using hstart b mem_cons_self (close :: rest)
      | cons b' items =>
        rw [map_cons, map_cons, intercalate_cons_cons, append_assoc, append_assoc]
        exact hstart b mem_cons_self _
    have hlength := length_le_intercalate (by decide : 0 < [','].length) ((b :: items).map text)
    rw [length_map, length_cons] at hlength
    simp only [readList, hnone]
    refine readSeq_map hcomma hblank hnumeric text value b h rest ?_
    rw [length_append, length_cons]
    omega

end Sequences

theorem expect_printUnformatted (tree : Doc N) (rest : List Char) :
    expect ']' (printUnformatted tree ++ rest) = none := by
  cases tree with
  | number value =>
    obtain ⟨c, text, htext⟩ := exists_cons_of_ne_nil (NumberText.text_ne_nil value)
    have hc := NumberText.isNumeric_text value c (by rw [htext]; exact mem_cons_self)
    rw [printUnformatted_number, htext, cons_append, expect_eq (not_isBlank_of_isNumeric hc), if_neg]
    rintro rfl
    exact absurd hc (by decide)
  | bool value => cases value <;> rfl
  | _ => rfl

theorem readable_array {items : List (Doc N)} (h : ∀ item ∈ items, Readable depth item) :
    Readable (depth + 1) (.array items) := by
  intro rest _
  have hlist := readList_map (by decide : ']' ≠ ',') (by decide) (by decide) printUnformatted id h
    (fun item _ => expect_printUnformatted item) rest
  rw [printUnformatted_array, cons_append, cons_append, append_assoc, singleton_append,
    readValue_bracket, hlist, map_some, List.map_id]

theorem readField_print {field : String × Doc N} (h : Readable depth field.2) (hrest : Stops rest) :
    readField (readValue depth) (printString field.1 ++ ':' :: printUnformatted field.2 ++ rest) =
      some (field, rest) := by
  rw [readField, printString, cons_append, cons_append, cons_append, expect_eq (by decide), if_pos rfl,
    bind_some, append_assoc, append_assoc, singleton_append, readChars_flatMap,
    bind_some, cons_append, expect_eq (by decide), if_pos rfl, bind_some, h rest hrest,
    map_some, String.ofList_toList]

theorem readable_object {fields : List (String × Doc N)} (h : ∀ f ∈ fields, Readable depth f.2) :
    Readable (depth + 1) (.object fields) := by
  intro rest _
  have hlist := readList_map (by decide : '\x7d' ≠ ',') (by decide) (by decide)
    (fun f : String × Doc N => printString f.1 ++ ':' :: printUnformatted f.2) id
    (fun f hf rest hrest => readField_print (h f hf) hrest)
    (fun f _ rest => by simp [printString, expect, isBlank]) rest
  rw [printUnformatted_object, cons_append, cons_append, append_assoc, singleton_append,
    readValue_brace, hlist, map_some, List.map_id]

theorem readDocument_printUnformatted {tree : Doc N} (h : Readable nestingLimit tree) :
    readDocument (printUnformatted tree) = some tree := by
  have hread := h [] (fun c hc => by cases hc)
  rw [append_nil] at hread
  rw [readDocument, hread, bind_some, all_nil, if_pos rfl]

def boundedPrint (tree : Doc N) (size : Nat) : Option String :=
  if (printUnformatted tree).length + 5 ≤ size then some (String.ofList (printUnformatted tree)) else none

def printInt : Int → List Char
  | .ofNat n => Nat.toDigits 10 n
  | .negSucc n => '-' :: Nat.toDigits 10 (n + 1)

def readInt (text : List Char) : Option Int :=
  if '-' ∈ text.head? then some (-(Nat.ofDigitChars 10 text.tail 0 : Int))
  else some (Nat.ofDigitChars 10 text 0 : Int)

theorem isNumeric_toDigits {n : Nat} {c : Char} (hc : c ∈ Nat.toDigits 10 n) : isNumeric c ∧ c ≠ '-' := by
  have hdigit : c.isDigit := Nat.isDigit_of_mem_toDigits (by decide) (by decide) hc
  refine ⟨by simp [isNumeric, hdigit], ?_⟩
  rintro rfl
  exact absurd hdigit (by decide)

instance : NumberText Int where
  text := printInt
  read := readInt
  text_ne_nil n := by cases n <;> simp [printInt]
  isNumeric_text n c hc := by
    cases n with
    | ofNat n => exact (isNumeric_toDigits hc).1
    | negSucc n =>
      rcases mem_cons.mp hc with rfl | hc
      · decide
      · exact (isNumeric_toDigits hc).1
  read_text n := by
    cases n with
    | ofNat n =>
      rw [printInt, readInt, if_neg fun h => (isNumeric_toDigits (mem_of_mem_head? h)).2 rfl,
        Nat.ofDigitChars_ten_toDigits]
      rfl
    | negSucc n =>
      rw [printInt, readInt, if_pos (by simp), tail_cons, Nat.ofDigitChars_ten_toDigits]
      rfl

structure NumberToken where
  chars : List Char
  ne_nil : chars ≠ []
  isNumeric_chars : ∀ c ∈ chars, isNumeric c

def NumberToken.ofNat (n : Nat) : NumberToken :=
  ⟨Nat.toDigits 10 n, Nat.toDigits_ne_nil, fun _ hc => (isNumeric_toDigits hc).1⟩

instance : NumberText NumberToken where
  text := NumberToken.chars
  read text := if h : text ≠ [] ∧ text.all isNumeric then some ⟨text, h.1, List.all_eq_true.mp h.2⟩ else none
  text_ne_nil := NumberToken.ne_nil
  isNumeric_text := NumberToken.isNumeric_chars
  read_text n := dif_pos ⟨n.ne_nil, List.all_eq_true.mpr n.isNumeric_chars⟩

end Logistics.JsonText
