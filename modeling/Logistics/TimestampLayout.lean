import Logistics.MessageSize

namespace Logistics.TimestampLayout

open DecimalText JsonText Serialize List Option

def isLeap (year : Nat) : Bool := year % 4 = 0 ∧ (year % 100 ≠ 0 ∨ year % 400 = 0)

def daysIn (month year : Nat) : Nat :=
  if month = 2 then if isLeap year then 29 else 28
  else if month ∈ [4, 6, 9, 11] then 30
  else 31

structure Fields where
  year : Nat
  month : Nat
  day : Nat
  hour : Nat
  minute : Nat
  second : Nat
  millisecond : Nat
deriving DecidableEq

def Fields.InRange (f : Fields) : Prop :=
  f.year < 10000 ∧ (1 ≤ f.month ∧ f.month ≤ 12) ∧ (1 ≤ f.day ∧ f.day ≤ daysIn f.month f.year) ∧
    f.hour < 24 ∧ f.minute < 60 ∧ f.second < 60 ∧ f.millisecond < 1000

instance : DecidablePred Fields.InRange := fun _ => inferInstanceAs (Decidable (_ ∧ _))

def Time := {f : Fields // f.InRange}

def getnum (fixed : Bool) : List Char → Option (Nat × List Char)
  | [] => none
  | [c] => if c.isDigit ∧ fixed = false then some (Nat.ofDigitChars 10 [c] 0, []) else none
  | c :: d :: rest =>
    if c.isDigit then
      if d.isDigit then some (Nat.ofDigitChars 10 [c, d] 0, rest)
      else if fixed then none
      else some (Nat.ofDigitChars 10 [c] 0, d :: rest)
    else none

def longYear (text : List Char) : Option (Nat × List Char) :=
  if (text.take 4).length = 4 ∧ (text.take 4).all Char.isDigit then
    some (Nat.ofDigitChars 10 (text.take 4) 0, text.drop 4)
  else none

def skip (c : Char) : List Char → Option (List Char)
  | [] => none
  | d :: rest => if d = c then some rest else none

def atoi (text : List Char) : Option Int :=
  let signed := splitSign text
  if signed.2.all Char.isDigit then
    some (if signed.1 then -(Nat.ofDigitChars 10 signed.2 0 : Int) else Nat.ofDigitChars 10 signed.2 0)
  else none

def fracSecond : List Char → Option (Nat × List Char)
  | [] => none
  | separator :: rest =>
    if (separator = '.' ∨ separator = ',') ∧ (rest.take 3).length = 3 then
      (atoi (rest.take 3)).bind fun value => if value < 0 then none else some (value.toNat, rest.drop 3)
    else none

/-- `time.Parse` with the layout `2006-01-02T15:04:05.000Z`. -/
def parse (text : List Char) : Option Time :=
  (longYear text).bind fun year =>
  (skip '-' year.2).bind fun text =>
  (getnum true text).bind fun month =>
  (skip '-' month.2).bind fun text =>
  (getnum true text).bind fun day =>
  (skip 'T' day.2).bind fun text =>
  (getnum false text).bind fun hour =>
  (skip ':' hour.2).bind fun text =>
  (getnum true text).bind fun minute =>
  (skip ':' minute.2).bind fun text =>
  (getnum true text).bind fun second =>
  (fracSecond second.2).bind fun millisecond =>
  (skip 'Z' millisecond.2).bind fun text =>
    if h : text = [] ∧ Fields.InRange ⟨year.1, month.1, day.1, hour.1, minute.1, second.1, millisecond.1⟩ then
      some ⟨_, h.2⟩
    else none

def pad : Nat → Nat → List Char
  | 0, _ => []
  | width + 1, n => pad width (n / 10) ++ [Nat.digitChar (n % 10)]

def Time.format (t : Time) : List Char :=
  pad 4 t.val.year ++ '-' :: (pad 2 t.val.month ++ '-' :: (pad 2 t.val.day ++ 'T' :: (pad 2 t.val.hour ++ ':' ::
    (pad 2 t.val.minute ++ ':' :: (pad 2 t.val.second ++ '.' :: (pad 3 t.val.millisecond ++ ['Z']))))))

def Time.text (t : Time) : String := String.ofList t.format

variable {n width : Nat} {rest : List Char}

theorem length_pad (width n : Nat) : (pad width n).length = width := by
  induction width generalizing n with
  | zero => rfl
  | succ width ih => rw [pad, length_append, ih, length_singleton]

theorem isDigit_pad {c : Char} (h : c ∈ pad width n) : c.isDigit := by
  induction width generalizing n with
  | zero => cases h
  | succ width ih =>
    rcases mem_append.mp h with h | h
    · exact ih h
    · rw [mem_singleton.mp h]
      rw [Nat.isDigit_digitChar, decide_eq_true_eq]
      exact Nat.mod_lt n (by decide)

theorem ofDigitChars_pad (h : n < 10 ^ width) : Nat.ofDigitChars 10 (pad width n) 0 = n := by
  induction width generalizing n with
  | zero =>
    have hzero : n = 0 := by omega
    rw [hzero]
    rfl
  | succ width ih =>
    have hdiv : n / 10 < 10 ^ width := by
      omega
    rw [pad, Nat.ofDigitChars_append, ih hdiv,
      Nat.ofDigitChars_cons_digitChar_of_lt_ten (Nat.mod_lt n (by decide)), Nat.ofDigitChars_nil]
    exact Nat.div_add_mod n 10

theorem getnum_pad (fixed : Bool) (h : n < 100) : getnum fixed (pad 2 n ++ rest) = some (n, rest) := by
  have hvalue : Nat.ofDigitChars 10 (pad 2 n) 0 = n := ofDigitChars_pad h
  have hdigit : ∀ c ∈ pad 2 n, c.isDigit := fun _ => isDigit_pad
  change getnum fixed (Nat.digitChar (n / 10 % 10) :: Nat.digitChar (n % 10) :: rest) = _
  rw [getnum, if_pos (hdigit _ mem_cons_self), if_pos (hdigit _ (mem_cons_of_mem _ mem_cons_self))]
  exact congrArg (fun value => some (value, rest)) hvalue

theorem longYear_pad (h : n < 10000) : longYear (pad 4 n ++ rest) = some (n, rest) := by
  have htake : (pad 4 n ++ rest).take 4 = pad 4 n := take_left' (length_pad 4 n)
  have hdrop : (pad 4 n ++ rest).drop 4 = rest := drop_left' (length_pad 4 n)
  have hdigit : (pad 4 n).all Char.isDigit := all_eq_true.mpr fun _ => isDigit_pad
  rw [longYear, htake, hdrop, if_pos ⟨length_pad 4 n, hdigit⟩, ofDigitChars_pad h]

theorem atoi_pad (h : n < 10 ^ (width + 1)) : atoi (pad (width + 1) n) = some (n : Int) := by
  have hdigit : (pad (width + 1) n).all Char.isDigit := all_eq_true.mpr fun _ => isDigit_pad
  have hsign : splitSign (pad (width + 1) n) = (false, pad (width + 1) n) := by
    cases hpad : pad (width + 1) n with
    | nil => exact absurd (hpad ▸ length_pad (width + 1) n) (by simp)
    | cons c text =>
      have hc : c ∈ pad (width + 1) n := by
        rw [hpad]
        exact mem_cons_self
      exact splitSign_of_isDigit (isDigit_pad hc)
  rw [atoi, hsign]
  change (if (pad (width + 1) n).all Char.isDigit then
    some (Nat.ofDigitChars 10 (pad (width + 1) n) 0 : Int) else none) = _
  rw [if_pos hdigit, ofDigitChars_pad h]

theorem fracSecond_pad (h : n < 1000) : fracSecond ('.' :: (pad 3 n ++ rest)) = some (n, rest) := by
  have htake : (pad 3 n ++ rest).take 3 = pad 3 n := take_left' (length_pad 3 n)
  have hdrop : (pad 3 n ++ rest).drop 3 = rest := drop_left' (length_pad 3 n)
  rw [fracSecond, htake, hdrop, if_pos ⟨.inl rfl, length_pad 3 n⟩, atoi_pad h, bind_some,
    if_neg (by omega), Int.toNat_natCast]

theorem skip_self (c : Char) (rest : List Char) : skip c (c :: rest) = some rest := if_pos rfl

theorem parse_format (t : Time) : parse t.format = some t := by
  obtain ⟨hyear, hmonth, hday, hhour, hminute, hsecond, hmillisecond⟩ := t.property
  have hdays : t.val.day < 100 := by
    have hle : daysIn t.val.month t.val.year ≤ 31 := by
      rw [daysIn]
      split
      · split <;> decide
      · split <;> decide
    omega
  rw [parse, Time.format, longYear_pad hyear, bind_some, skip_self, bind_some,
    getnum_pad _ (Nat.lt_of_le_of_lt hmonth.2 (by decide : 12 < 100)), bind_some, skip_self, bind_some,
    getnum_pad _ hdays, bind_some, skip_self, bind_some,
    getnum_pad _ (Nat.lt_trans hhour (by decide : 24 < 100)), bind_some, skip_self, bind_some,
    getnum_pad _ (Nat.lt_trans hminute (by decide : 60 < 100)), bind_some, skip_self, bind_some,
    getnum_pad _ (Nat.lt_trans hsecond (by decide : 60 < 100)), bind_some, fracSecond_pad hmillisecond,
    bind_some, skip_self, bind_some]
  exact dif_pos ⟨rfl, t.property⟩

def zeroTime : Time := ⟨⟨1, 1, 1, 0, 0, 0, 0⟩, by decide⟩

def trimQuotes (data : List Char) : List Char := (data.dropWhile (· = '"')).rdropWhile (· = '"')

/-- `UnmarshalJSON` of the `Timestamp` of the gateway; the data is not unescaped. -/
def unmarshalJSON (data : List Char) : Option Time :=
  if trimQuotes data = [] ∨ trimQuotes data = "null".toList then some zeroTime else parse (trimQuotes data)

def reformat (text : String) : Option String := (unmarshalJSON (printString text)).map Time.text

theorem trimQuotes_quoted {text : List Char} (h : '"' ∉ text) : trimQuotes ('"' :: text ++ ['"']) = text := by
  have hdrop : ('"' :: text ++ ['"']).dropWhile (· = '"') = (text ++ ['"']).dropWhile (· = '"') :=
    dropWhile_cons_of_pos rfl
  rw [trimQuotes, hdrop]
  cases text with
  | nil => rfl
  | cons c text =>
    have hc : (c :: (text ++ ['"'])).dropWhile (· = '"') = c :: (text ++ ['"']) := by
      apply dropWhile_cons_of_neg
      rw [decide_eq_true_eq]
      rintro rfl
      exact h mem_cons_self
    rw [cons_append, hc, ← cons_append, rdropWhile_concat_pos _ _ _ rfl, rdropWhile_eq_self_iff]
    intro hne hlast
    rw [decide_eq_true_eq] at hlast
    exact h (hlast ▸ getLast_mem hne)

theorem mem_format {t : Time} {c : Char} (h : c ∈ t.format) : c.isDigit ∨ c ∈ ['-', 'T', ':', '.', 'Z'] := by
  simp only [Time.format, mem_append, mem_cons, not_mem_nil, or_false] at h ⊢
  rcases h with h | h | h | h | h | h | h | h | h | h | h | h | h | h
  all_goals first | exact .inl (isDigit_pad h) | simp [h]

theorem unescaped_text (t : Time) : Unescaped t.text := by
  have hmarks : ∀ c ∈ ['-', 'T', ':', '.', 'Z'], escape c = [c] := by
    rw [← forall_iff_forall_mem]
    decide
  intro c hc
  rw [Time.text, String.toList_ofList] at hc
  rcases mem_format hc with h | h
  · exact escape_of_isDigit h
  · exact hmarks c h

theorem unmarshalJSON_text (t : Time) : unmarshalJSON (printString t.text) = some t := by
  have hquote : '"' ∉ t.format := by
    intro h
    rcases mem_format h with h | h
    · exact absurd h (by decide)
    · exact absurd h (by decide)
  have hdata : trimQuotes (printString t.text) = t.format := by
    rw [printString, flatMap_escape (unescaped_text t), Time.text, String.toList_ofList, trimQuotes_quoted hquote]
  have hparse := parse_format t
  rw [unmarshalJSON, hdata, if_neg, hparse]
  rintro (h | h)
  · rw [h] at hparse
    cases hparse
  · rw [h] at hparse
    cases hparse

end Logistics.TimestampLayout
