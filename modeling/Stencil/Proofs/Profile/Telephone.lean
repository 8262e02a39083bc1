import Mathlib.Logic.Relation
import Stencil.Profile.Validation

/-!
# Telephone numbers

Of a telephone number only the digits count: other characters may be put in and taken out, and what
is found is the same (`phoneFinding_congr`).  A suggestion writes the digits in the same order, so
that it is accepted and is the one suggestion for itself (`phoneFinding_canonical`).
-/

namespace Stencil.Validation

open Text Relation

/-- What is found of a text that is checked as a telephone number. -/
def phoneFinding (phone : String) : Finding :=
  checkGiven "Phone number" checkPhone (some (.text phone))

theorem phoneFinding_eq {phone : String} (h : phone ≠ "") :
    phoneFinding phone = checkPhone phone := checkGiven_text "Phone number" checkPhone h

def digitsOf (s : String) : List Char := s.toList.filter isDecimal

theorem suggestions_phoneFinding {phone : String} (h : phone ≠ "") :
    (phoneFinding phone).suggestions = phoneSuggestions (digitsOf phone) := by
  rw [phoneFinding_eq h]
  rfl

theorem isValid_phoneFinding {phone : String} (h : phone ≠ "") :
    (phoneFinding phone).isValid = true ↔
      10 ≤ (digitsOf phone).length ∧ (digitsOf phone).length ≤ 15 := by
  rw [phoneFinding_eq h]
  simp [checkPhone, digitsOf]

/-! ## Only the digits count -/

/-- A character that is no digit is put in or taken out. -/
inductive Respelled : List Char → List Char → Prop
  | insert (front back : List Char) {c : Char} (h : isDecimal c = false) :
      Respelled (front ++ back) (front ++ c :: back)
  | delete (front back : List Char) {c : Char} (h : isDecimal c = false) :
      Respelled (front ++ c :: back) (front ++ back)

theorem Respelled.filter_eq {s t : List Char} (h : Respelled s t) :
    s.filter isDecimal = t.filter isDecimal := by
  cases h with
  | insert front back h => simp [h]
  | delete front back h => simp [h]

/-- Whatever is put in and taken out, one after the other, the digits stay. -/
theorem digitsOf_eq {s t : String} (h : ReflTransGen Respelled s.toList t.toList) :
    digitsOf s = digitsOf t := by
  have hsteps : ∀ t : List Char, ReflTransGen Respelled s.toList t →
      s.toList.filter isDecimal = t.filter isDecimal := by
    intro t h
    induction h with
    | refl => rfl
    | tail _ hstep ih => exact ih.trans hstep.filter_eq
  exact hsteps t.toList h

theorem phoneFinding_congr {s t : String} (hs : s ≠ "") (ht : t ≠ "")
    (h : digitsOf s = digitsOf t) : phoneFinding s = phoneFinding t := by
  rw [digitsOf, digitsOf] at h
  simp only [phoneFinding_eq hs, phoneFinding_eq ht, checkPhone, h]

/-! ## Suggestions -/

/-- A suggestion and the digits that it is made for: ten digits, or ten behind a one. -/
inductive Suggests : List Char → String → Prop
  | ten {digits : List Char} (h : digits.length = 10) : Suggests digits (areaCode digits)
  | eleven {digits : List Char} (h : digits.length = 10) :
      Suggests ('1' :: digits) ("+1 " ++ areaCode digits)

/-- The digits with an area code are the digits. -/
theorem filter_areaCode {digits : List Char} (h : ∀ c ∈ digits, isDecimal c = true) :
    (areaCode digits).toList.filter isDecimal = digits := by
  have hopen : "(".toList.filter isDecimal = [] := by decide
  have hclose : ") ".toList.filter isDecimal = [] := by decide
  have hdash : "-".toList.filter isDecimal = [] := by decide
  have hparts : digits.take 3 ++ (digits.drop 3).take 3 ++ digits.drop 6 = digits := by
    rw [List.append_assoc, ← List.drop_drop (i := 3) (j := 3), List.take_append_drop,
      List.take_append_drop]
  simp only [areaCode, String.toList_append, String.toList_ofList, List.filter_append, hopen,
    hclose, hdash, List.nil_append, List.append_nil]
  rw [← List.filter_append, ← List.filter_append, hparts]
  exact List.filter_eq_self.2 h

theorem Suggests.digits_eq {digits : List Char} {s : String} (h : Suggests digits s)
    (hdigits : ∀ c ∈ digits, isDecimal c = true) : digitsOf s = digits := by
  cases h with
  | ten h => exact filter_areaCode hdigits
  | eleven h =>
    have hcode : "+1 ".toList.filter isDecimal = ['1'] := by decide
    rw [digitsOf, String.toList_append, List.filter_append, hcode,
      filter_areaCode (List.forall_mem_cons.1 hdigits).2, List.singleton_append]

/-- What is suggested is the only suggestion. -/
theorem Suggests.phoneSuggestions_eq {digits : List Char} {s : String} (h : Suggests digits s) :
    phoneSuggestions digits = [s] := by
  cases h with
  | ten h => exact if_pos h
  | eleven h => simp [phoneSuggestions, h]

theorem suggests_of_mem {digits : List Char} {s : String} (h : s ∈ phoneSuggestions digits) :
    Suggests digits s := by
  unfold phoneSuggestions at h
  split at h
  · rename_i hten
    rw [List.mem_singleton.1 h]
    exact .ten hten
  · split at h
    · split at h
      · rename_i hrest
        rw [List.mem_singleton.1 h]
        exact .eleven hrest
      · cases h
    · cases h

theorem length_phoneSuggestions_le (digits : List Char) : (phoneSuggestions digits).length ≤ 1 := by
  cases hlist : phoneSuggestions digits with
  | nil => exact Nat.zero_le 1
  | cons s rest =>
    have hs : Suggests digits s := suggests_of_mem (hlist ▸ List.mem_cons_self)
    rw [← hlist, hs.phoneSuggestions_eq]
    exact Nat.le_refl 1

theorem Suggests.length {digits : List Char} {s : String} (h : Suggests digits s) :
    10 ≤ digits.length ∧ digits.length ≤ 15 := by
  cases h with
  | ten h => omega
  | eleven h =>
    rw [List.length_cons]
    omega

/-- What is suggested for the digits of a number is what is suggested for itself. -/
theorem Suggests.phoneFinding_eq {phone s : String} (h : Suggests (digitsOf phone) s) :
    digitsOf s = digitsOf phone ∧ (phoneFinding s).isValid = true ∧
      (phoneFinding s).suggestions = [s] := by
  have hdigits : digitsOf s = digitsOf phone := h.digits_eq fun c hc => (List.mem_filter.1 hc).2
  have hne : s ≠ "" := by
    rintro rfl
    have hlength := h.length.1
    rw [← hdigits] at hlength
    exact absurd hlength (by decide)
  rw [isValid_phoneFinding hne, suggestions_phoneFinding hne, hdigits]
  exact ⟨rfl, h.length, h.phoneSuggestions_eq⟩

/-- **Telephone numbers.**  What is found of a telephone number stays the same when characters that
are no digits are put in and taken out.  There is at most one suggestion, namely for ten digits and
for ten behind a one.  It has the digits of the number, is accepted, and is the one suggestion for
itself. -/
theorem phoneFinding_canonical {phone : String} (h : phone ≠ "") :
    let found := phoneFinding phone
    (∀ other : String, other ≠ "" → ReflTransGen Respelled phone.toList other.toList →
      phoneFinding other = found) ∧
    found.suggestions.length ≤ 1 ∧
    ∀ s, (s ∈ found.suggestions ↔ Suggests (digitsOf phone) s) ∧
      (s ∈ found.suggestions → digitsOf s = digitsOf phone ∧
        (phoneFinding s).isValid = true ∧ (phoneFinding s).suggestions = [s]) := by
  intro found
  have hfound : found.suggestions = phoneSuggestions (digitsOf phone) := suggestions_phoneFinding h
  rw [hfound]
  refine ⟨fun other hother hedits => phoneFinding_congr hother h (digitsOf_eq hedits).symm,
    length_phoneSuggestions_le _, fun s => ⟨⟨suggests_of_mem, fun hs => ?_⟩, fun hmem => ?_⟩⟩
  · rw [hs.phoneSuggestions_eq]
    exact List.mem_cons_self
  · exact (suggests_of_mem hmem).phoneFinding_eq

/-- A number with digits of another script, and the same number with the country code set off. -/
theorem phoneFinding_canonical_scripts :
    let phone := "1५५५123-4567"
    let other := "+1५५५123-4567"
    let suggestion := "+1 (५५५) 123-4567"
    phone ≠ "" ∧ other ≠ "" ∧ ReflTransGen Respelled phone.toList other.toList ∧
      phoneFinding other = phoneFinding phone ∧
      suggestion ∈ (phoneFinding phone).suggestions ∧
      (phoneFinding suggestion).isValid = true ∧
      (phoneFinding suggestion).suggestions = [suggestion] := by
  intro phone other suggestion
  have hphone : phone ≠ "" := by decide
  have hother : other ≠ "" := by decide
  have hedits : ReflTransGen Respelled phone.toList other.toList := by
    have hchars : other.toList = '+' :: phone.toList := by decide
    rw [hchars]
    exact .single (.insert [] phone.toList (by decide))
  have hmem : suggestion ∈ (phoneFinding phone).suggestions := by decide +kernel
  obtain ⟨hsame, -, hsuggestions⟩ := phoneFinding_canonical hphone
  exact ⟨hphone, hother, hedits, hsame other hother hedits, hmem,
    ((hsuggestions suggestion).2 hmem).2⟩

end Stencil.Validation
