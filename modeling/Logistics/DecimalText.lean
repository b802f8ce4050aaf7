import Mathlib.Data.Nat.Digits.Defs
import Mathlib.Data.List.DropRight

namespace Logistics.DecimalText

open List

def isSpace (c : Char) : Bool := c.toNat = 32 ∨ (9 ≤ c.toNat ∧ c.toNat ≤ 13)

def splitSign : List Char → Bool × List Char
  | '-' :: rest => (true, rest)
  | '+' :: rest => (false, rest)
  | text => (false, text)

/-- `std::stoi`: white space, a sign, and as many digits as follow; what comes
after them is ignored. None is an exception: no digit, or no `int`. -/
def stoi (text : List Char) : Option Int :=
  let signed := splitSign (text.dropWhile isSpace)
  let digits := signed.2.takeWhile Char.isDigit
  let value : Int := if signed.1 then -(Nat.ofDigitChars 10 digits 0 : Int) else Nat.ofDigitChars 10 digits 0
  if digits = [] ∨ ¬ (-2 ^ 31 ≤ value ∧ value < 2 ^ 31) then none else some value

def afterLastBlank (text : List Char) : Option (List Char) :=
  if ' ' ∈ text then some (text.reverse.takeWhile (· ≠ ' ')).reverse else none

variable {text : List Char}

theorem isDigit_bounds {c : Char} (h : c.isDigit) : 48 ≤ c.toNat ∧ c.toNat ≤ 57 := by
  simp only [Char.isDigit, Bool.and_eq_true, decide_eq_true_eq] at h
  exact h

theorem not_isSpace_of_isDigit {c : Char} (h : c.isDigit) : isSpace c = false := by
  obtain ⟨hlow, hhigh⟩ := isDigit_bounds h
  simp only [isSpace, decide_eq_false_iff_not]
  omega

theorem splitSign_of_isDigit {c : Char} (h : c.isDigit) : splitSign (c :: text) = (false, c :: text) := by
  obtain ⟨hlow, hhigh⟩ := isDigit_bounds h
  rw [splitSign]
  · rintro rest ⟨⟩
    exact absurd hlow (by decide)
  · rintro rest ⟨⟩
    exact absurd hlow (by decide)

theorem stoi_of_digits (hne : text ≠ []) (hdigits : ∀ c ∈ text, c.isDigit)
    (hlt : Nat.ofDigitChars 10 text 0 < 2 ^ 31) : stoi text = some (Nat.ofDigitChars 10 text 0 : Int) := by
  obtain ⟨c, rest, rfl⟩ := exists_cons_of_ne_nil hne
  have hc := hdigits c mem_cons_self
  have hspace : (c :: rest).dropWhile isSpace = c :: rest :=
    dropWhile_cons_of_neg (by rw [not_isSpace_of_isDigit hc]; exact Bool.false_ne_true)
  have htake : (c :: rest).takeWhile Char.isDigit = c :: rest := takeWhile_eq_self_iff.mpr hdigits
  simp only [stoi, hspace, splitSign_of_isDigit hc, htake]
  rw [if_neg]
  · rfl
  · simp only [Bool.false_eq_true, if_false, not_or, not_not]
    exact ⟨cons_ne_nil _ _, by omega, by exact_mod_cast hlt⟩

theorem afterLastBlank_append (text : List Char) {word : List Char} (h : ' ' ∉ word) :
    afterLastBlank (text ++ ' ' :: word) = some word := by
  rw [afterLastBlank, if_pos (by simp), reverse_append, reverse_cons, append_assoc,
    takeWhile_append_of_pos]
  · simp
  · intro c hc
    have hne : c ≠ ' ' := fun he => h (he ▸ mem_reverse.mp hc)
    simpa using hne

section Digits

variable {b n : Nat} {sep : Char} {words words' : List Nat}

theorem toDigits_injective (hb : 1 < b)
    (hdigits : ∀ d < b, ∀ e < b, Nat.digitChar d = Nat.digitChar e → d = e) : Function.Injective (Nat.toDigits b) := by
  intro n
  induction n using Nat.strong_induction_on with
  | _ n ih =>
    have hne (x y : Char) (k : Nat) : [x] ≠ Nat.toDigits b k ++ [y] :=
      fun h => absurd (congrArg List.length h) (by simp [Nat.toDigits_ne_nil])
    intro m h
    rw [Nat.toDigits_eq_if hb, Nat.toDigits_eq_if (n := m) hb] at h
    split at h
    · next hn =>
      split at h
      · next hm => exact hdigits n hn m hm (List.cons.inj h).1
      · exact absurd h (hne _ _ _)
    · split at h
      · exact absurd h.symm (hne _ _ _)
      · obtain ⟨hinit, hlast⟩ := append_inj' h rfl
        have hdiv := ih (n / b) (Nat.div_lt_self (by omega) hb) hinit
        have hmod := hdigits _ (Nat.mod_lt n (by omega)) _ (Nat.mod_lt m (by omega)) (List.cons.inj hlast).1
        rw [← Nat.div_add_mod n b, hdiv, hmod, Nat.div_add_mod]

theorem toString_injective {a b : Nat} (h : toString a = toString b) : a = b := by
  have htext : (Nat.repr a).toList = (Nat.repr b).toList := congrArg String.toList h
  rw [Nat.toList_repr, Nat.toList_repr] at htext
  exact toDigits_injective (by decide) (by decide) htext

theorem forall_mem_toDigits {P : Char → Prop} (hb : 1 < b) (h : ∀ d < b, P (Nat.digitChar d)) :
    ∀ c ∈ Nat.toDigits b n, P c := by
  induction n using Nat.strong_induction_on with
  | _ n ih =>
    rw [Nat.toDigits_eq_if hb]
    split
    · next hn => exact forall_mem_singleton.mpr (h n hn)
    · exact forall_mem_append.mpr ⟨ih (n / b) (Nat.div_lt_self (by omega) hb),
        forall_mem_singleton.mpr (h _ (Nat.mod_lt n (by omega)))⟩

def groups (sep : Char) (base : Nat) (words : List Nat) : String :=
  String.ofList ([sep].intercalate (words.map (Nat.toDigits base)))

theorem groups_inj (hdigits : Function.Injective (Nat.toDigits b)) (hsep : ∀ n, sep ∉ Nat.toDigits b n)
    (hne : words ≠ []) (hne' : words' ≠ []) (h : groups sep b words = groups sep b words') : words = words' := by
  have hfree (words : List Nat) : ∀ l ∈ words.map (Nat.toDigits b), sep ∉ l :=
    forall_mem_map.mpr fun n _ => hsep n
  have htext := congrArg (List.splitOn sep) (String.ofList_injective h)
  rw [splitOn_intercalate sep (hfree _) (by simpa using hne),
    splitOn_intercalate sep (hfree _) (by simpa using hne')] at htext
  exact map_injective_iff.mpr hdigits htext

theorem groups_text {P : Char → Prop} {k : Nat} (hb : 1 < b) (hk : 0 < k) (h : ∀ d < b, P (Nat.digitChar d))
    (hsep : P sep) (hwords : ∀ n ∈ words, n < b ^ k) :
    (∀ c ∈ (groups sep b words).toList, P c) ∧ (groups sep b words).length ≤ (k + 1) * words.length := by
  rw [groups, String.toList_ofList, String.length_ofList]
  induction words with
  | nil => simp
  | cons n words ih =>
    obtain ⟨hn, hwords⟩ := forall_mem_cons.mp hwords
    have hlength := (Nat.length_toDigits_le_iff hb hk).mpr hn
    have hchars : ∀ c ∈ Nat.toDigits b n, P c := forall_mem_toDigits hb h
    cases words with
    | nil => simpa using ⟨hchars, hlength.trans (Nat.le_succ k)⟩
    | cons m words =>
      obtain ⟨hrest, hle⟩ := ih hwords
      simp only [map_cons, intercalate_cons_cons, forall_mem_append, forall_mem_singleton,
        length_append, length_cons, length_nil, Nat.mul_add] at hrest hle ⊢
      exact ⟨⟨⟨hchars, hsep⟩, hrest⟩, by omega⟩

end Digits

end Logistics.DecimalText

namespace Logistics.TrimSpace

/-- The white space of Unicode, as `strings.TrimSpace` knows it. -/
def isSpace (c : Char) : Bool :=
  let n := c.toNat
  (9 ≤ n ∧ n ≤ 13) ∨ n = 0x20 ∨ n = 0x85 ∨ n = 0xA0 ∨ n = 0x1680 ∨ (0x2000 ≤ n ∧ n ≤ 0x200A) ∨ n = 0x2028 ∨
    n = 0x2029 ∨ n = 0x202F ∨ n = 0x205F ∨ n = 0x3000

def trimSpace (s : String) : String := .ofList ((s.toList.dropWhile isSpace).rdropWhile isSpace)

theorem trimSpace_trimSpace (text : String) : trimSpace (trimSpace text) = trimSpace text := by
  have hfront : ((text.toList.dropWhile isSpace).rdropWhile isSpace).dropWhile isSpace =
      (text.toList.dropWhile isSpace).rdropWhile isSpace := by
    refine List.dropWhile_eq_self_iff.mpr fun hpos => ?_
    have hpre := List.rdropWhile_prefix isSpace (text.toList.dropWhile isSpace)
    have hlen := hpos.trans_le hpre.length_le
    rw [hpre.getElem hpos]
    exact List.dropWhile_get_zero_not isSpace _ hlen
  rw [trimSpace, trimSpace, String.toList_ofList, hfront, List.rdropWhile_idempotent]

theorem toList_toString (n : Nat) : (toString n).toList = Nat.toDigits 10 n := Nat.toList_repr

theorem toString_ne_empty (n : Nat) : toString n ≠ "" := by
  intro h
  have hnil := congrArg String.toList h
  rw [toList_toString] at hnil
  exact Nat.toDigits_ne_nil hnil

theorem not_isSpace_of_isDigit {c : Char} (h : c.isDigit) : isSpace c = false := by
  obtain ⟨hlow, hhigh⟩ := DecimalText.isDigit_bounds h
  simp only [isSpace, decide_eq_false_iff_not]
  omega

theorem trimSpace_toString (n : Nat) : trimSpace (toString n) = toString n := by
  have hdigits : ∀ c ∈ (toString n).toList, isSpace c = false := by
    intro c hc
    rw [toList_toString] at hc
    exact not_isSpace_of_isDigit (Nat.isDigit_of_mem_toDigits (by decide) (by decide) hc)
  have hfront : (toString n).toList.dropWhile isSpace = (toString n).toList :=
    List.dropWhile_eq_self_iff.mpr fun hpos => by rw [hdigits _ (List.getElem_mem hpos)]; exact Bool.false_ne_true
  have hback : (toString n).toList.rdropWhile isSpace = (toString n).toList :=
    List.rdropWhile_eq_self_iff.mpr fun hne => by rw [hdigits _ (List.getLast_mem hne)]; exact Bool.false_ne_true
  rw [trimSpace, hfront, hback, String.ofList_toList]

end Logistics.TrimSpace
