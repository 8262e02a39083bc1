import Stencil.Pattern.Reader
import Stencil.Profile.Validation
import Stencil.Proofs.Pattern.Language
import Stencil.Proofs.Text.Occurring

/-!
# Mail addresses

An address has no blanks and one at sign, a name in front of it, and behind it a domain with a dot
that is neither its first nor its last character (`IsAddress`).  What is accepted are the addresses,
and besides them the addresses with one line feed behind (`accepted_iff_isAddress`).  A misspelled
domain is put right wherever it stands in the address, in the name as well
(`suggestions_of_typo`).
-/

namespace Stencil.Validation

open Text Pattern

/-- What is found of a text that is checked as a mail address. -/
def emailFinding (email : String) : Finding := checkGiven "Email" checkEmail (some (.text email))

theorem emailFinding_eq {email : String} (h : email ≠ "") :
    emailFinding email = checkEmail email := checkGiven_text "Email" checkEmail h

/-! ## Which texts are accepted -/

/-- No blanks and one at sign, a name in front of it, and behind it a domain with a dot that is
neither the first nor the last character. -/
structure IsAddress (s : List Char) : Prop where
  noBlank : ∀ c ∈ s, isBlank c = false
  oneAt : s.count '@' = 1
  parts : ∃ name front back, s = name ++ '@' :: (front ++ '.' :: back) ∧
    name ≠ [] ∧ front ≠ [] ∧ back ≠ []

theorem has_mailChar {c : Char} : mailChar.has c = true ↔ isBlank c = false ∧ c ≠ '@' := by
  have hat : c.toNat = 64 ↔ c = '@' := by
    rw [← Char.toNat_inj]
    rfl
  simp [mailChar, CharSet.has, CharItem.has, CharKind.has, hat]

theorem forall_mailChar_iff {w : List Char} :
    (∀ c ∈ w, mailChar.has c = true) ↔ (∀ c ∈ w, isBlank c = false) ∧ w.count '@' = 0 := by
  simp only [has_mailChar, List.count_eq_zero]
  constructor
  · intro h
    exact ⟨fun c hc => (h c hc).1, fun hat => (h '@' hat).2 rfl⟩
  · rintro ⟨hblank, hat⟩ c hc
    exact ⟨hblank c hc, ne_of_mem_of_not_mem hc hat⟩

/-- Of the at signs one stands behind the name, so that the parts have none of their own. -/
theorem mail_words_iff {name front back : List Char} :
    let s := name ++ '@' :: (front ++ '.' :: back)
    (∀ c ∈ s, isBlank c = false) ∧ s.count '@' = 1 ↔ (∀ c ∈ name, mailChar.has c = true) ∧
      (∀ c ∈ front, mailChar.has c = true) ∧ ∀ c ∈ back, mailChar.has c = true := by
  intro s
  have hblank : (∀ c ∈ s, isBlank c = false) ↔ (∀ c ∈ name, isBlank c = false) ∧
      (∀ c ∈ front, isBlank c = false) ∧ ∀ c ∈ back, isBlank c = false := by
    have hat : isBlank '@' = false := by decide
    have hdot : isBlank '.' = false := by decide
    simp only [s, List.forall_mem_append, List.forall_mem_cons, hat, hdot, true_and]
  have hcount : s.count '@' = name.count '@' + (front.count '@' + back.count '@') + 1 := by
    have hdot : ('.' :: back).count '@' = back.count '@' := List.count_cons_of_ne (by decide)
    rw [List.count_append, List.count_cons_self, List.count_append, hdot]
    omega
  rw [hblank, hcount]
  simp only [forall_mailChar_iff]
  constructor
  · rintro ⟨⟨hname, hfront, hback⟩, hone⟩
    exact ⟨⟨hname, by omega⟩, ⟨hfront, by omega⟩, hback, by omega⟩
  · rintro ⟨⟨hname, hname0⟩, ⟨hfront, hfront0⟩, hback, hback0⟩
    exact ⟨⟨hname, hfront, hback⟩, by omega⟩

/-- The pattern of an address without the conditions on its ends. -/
def mailParts : List Pattern :=
  [many1 mailChar, exactly ['@'], many1 mailChar, exactly ['.'], many1 mailChar]

theorem spells_mailParts_iff {s : List Char} : Spells (all mailParts) s ↔ IsAddress s := by
  simp only [mailParts, many1, spells_all_cons_iff, spells_all_nil_iff, spells_exactly_iff,
    spells_span_one_iff]
  constructor
  · rintro ⟨name, _, rfl, ⟨hname, hnameChars⟩, _, _, rfl, rfl, front, _, rfl,
      ⟨hfront, hfrontChars⟩, _, _, rfl, rfl, back, _, rfl, ⟨hback, hbackChars⟩, rfl⟩
    obtain ⟨hblank, hat⟩ := mail_words_iff.2 ⟨hnameChars, hfrontChars, hbackChars⟩
    rw [List.append_nil]
    exact ⟨hblank, hat, name, front, back, rfl, hname, hfront, hback⟩
  · rintro ⟨hblank, hat, name, front, back, rfl, hname, hfront, hback⟩
    obtain ⟨hnameChars, hfrontChars, hbackChars⟩ := mail_words_iff.1 ⟨hblank, hat⟩
    exact ⟨name, _, rfl, ⟨hname, hnameChars⟩, _, _, rfl, rfl, front, _, rfl,
      ⟨hfront, hfrontChars⟩, _, _, rfl, rfl, back, [], (List.append_nil back).symm,
      ⟨hback, hbackChars⟩, rfl⟩

theorem isEmail_iff {s : List Char} :
    isEmail s = true ↔ IsAddress s ∨ ∃ address, IsAddress address ∧ s = address ++ ['\n'] := by
  have hplain : (all mailParts).isPlain = true := rfl
  have hwhole : isEmail s = true ↔ ∃ text rest, s = text ++ rest ∧ Spells (all mailParts) text ∧
      (rest = [] ∨ rest = ['\n']) := matchesStart_whole_iff hplain
  simp only [spells_mailParts_iff] at hwhole
  refine hwhole.trans ⟨?_, ?_⟩
  · rintro ⟨address, _, rfl, haddress, rfl | rfl⟩
    · rw [List.append_nil]
      exact .inl haddress
    · exact .inr ⟨address, haddress, rfl⟩
  · rintro (haddress | ⟨address, haddress, rfl⟩)
    · exact ⟨s, [], (List.append_nil s).symm, haddress, .inl rfl⟩
    · exact ⟨address, ['\n'], rfl, haddress, .inr rfl⟩

/-- The pattern in the usual notation. -/
example :
    let source := "^[^\\s@]+@[^\\s@]+\\.[^\\s@]+$".toList
    (Expression.parse ⟨false, false, false⟩ source).map (·.pattern) = .ok mailPattern := rfl

theorem emailFinding_isValid (email : String) :
    (emailFinding email).isValid = isEmail email.toList := by
  by_cases h : email = ""
  · subst h
    decide
  · rw [emailFinding_eq h]
    rfl

theorem emailFinding_errors_eq_nil_iff (email : String) :
    (emailFinding email).errors = [] ↔ (emailFinding email).isValid = true := by
  by_cases h : email = ""
  · subst h
    decide
  · rw [emailFinding_eq h]
    cases hvalid : isEmail email.toList <;> simp [checkEmail, hvalid]

/-- **Which texts are accepted.**  A text is accepted as a mail address exactly if it is one or is
one with a line feed behind, and exactly then there is no error. -/
theorem accepted_iff_isAddress (email : String) :
    let found := emailFinding email
    (found.isValid = true ↔ IsAddress email.toList ∨
      ∃ address : String, IsAddress address.toList ∧ email = address ++ "\n") ∧
    (found.errors = [] ↔ found.isValid = true) := by
  intro found
  refine ⟨?_, emailFinding_errors_eq_nil_iff email⟩
  rw [emailFinding_isValid, isEmail_iff]
  refine or_congr_right ⟨?_, ?_⟩
  · rintro ⟨address, haddress, hemail⟩
    refine ⟨String.ofList address, by simpa using haddress, String.toList_inj.1 ?_⟩
    simpa using hemail
  · rintro ⟨address, haddress, rfl⟩
    exact ⟨address.toList, haddress, by simp⟩

/-- A line feed behind an address is no part of one, and is accepted. -/
theorem address_accepted_with_lineFeed :
    let found := emailFinding "jane@example.com\n"
    found.isValid = true ∧ found.errors = [] ∧ ¬ IsAddress "jane@example.com\n".toList := by
  refine ⟨by decide +kernel, by decide +kernel, fun h => ?_⟩
  exact absurd (h.noBlank '\n' (by decide)) (by decide)

/-! ## Misspelled domains -/

theorem domainOf_append {name : List Char} (h : '@' ∉ name) (domain : List Char) :
    domainOf (name ++ '@' :: domain) = domain := by
  rw [domainOf, splitFirst?_append h]
  rfl

theorem typo_of_mem {wrong right : String} (h : (wrong, right) ∈ domainTypos) :
    wrong.toList ≠ [] ∧ '@' ∉ wrong.toList ∧ right.toList ≠ wrong.toList := by
  have hall : ∀ e ∈ domainTypos,
      e.1.toList ≠ [] ∧ '@' ∉ e.1.toList ∧ e.2.toList ≠ e.1.toList := by decide
  exact hall _ h

/-- The correction is put in the place of the domain, and of all that is written like it in front
of the at sign. -/
theorem emailSuggestions_typo {name : List Char} (hname : '@' ∉ name) {wrong right : String}
    (htypo : (wrong, right) ∈ domainTypos) :
    emailSuggestions (name ++ '@' :: wrong.toList) =
      [String.ofList (replaceAll wrong.toList right.toList name ++ '@' :: right.toList)] := by
  obtain ⟨hempty, hat, -⟩ := typo_of_mem htypo
  have hlookup : domainTypos.lookup wrong = some right := Table.lookup_of_mem (by decide) htypo
  have hreplaced : replaceAll wrong.toList right.toList (name ++ '@' :: wrong.toList) =
      replaceAll wrong.toList right.toList name ++ '@' :: right.toList := by
    rw [replaceAll_append_cons hempty hat, replaceAll_self hempty]
  simp only [emailSuggestions, domainOf_append hname, String.ofList_toList, hlookup, hreplaced]

/-- **Misspelled domains.**  For a misspelled domain there is one suggestion, in which the
correction stands in the place of the domain.  It stands as well wherever the name reads like the
domain, so that the name is kept exactly if it does not do so anywhere. -/
theorem suggestions_of_typo {name wrong right : String} (hname : '@' ∉ name.toList)
    (htypo : (wrong, right) ∈ domainTypos) :
    let suggestions := (emailFinding (name ++ "@" ++ wrong)).suggestions
    suggestions =
      [String.ofList (replaceAll wrong.toList right.toList name.toList) ++ "@" ++ right] ∧
    (suggestions = [name ++ "@" ++ right] ↔ ¬ wrong.toList <:+: name.toList) := by
  intro suggestions
  have hsuggestions : suggestions =
      [String.ofList (replaceAll wrong.toList right.toList name.toList) ++ "@" ++ right] := by
    have hemail : name ++ "@" ++ wrong ≠ "" := by simp
    have hchars : (name ++ "@" ++ wrong).toList = name.toList ++ '@' :: wrong.toList := by simp
    show (emailFinding (name ++ "@" ++ wrong)).suggestions = _
    rw [emailFinding_eq hemail]
    show emailSuggestions (name ++ "@" ++ wrong).toList = _
    rw [hchars, emailSuggestions_typo hname htypo]
    exact congrArg (fun s => [s]) (String.toList_inj.1 (by simp))
  refine ⟨hsuggestions, ?_⟩
  obtain ⟨hempty, -, hdiffers⟩ := typo_of_mem htypo
  rw [hsuggestions, List.singleton_inj, ← String.toList_inj]
  simp only [String.toList_append, String.toList_ofList, List.append_cancel_right_eq]
  rw [replaceAll_eq_self_iff hempty, or_iff_right hdiffers]

/-- In the name the domain is put right where all of it stands, and no other domain is. -/
theorem suggestions_of_typo_inName :
    '@' ∉ "yaho.com.yaho.co".toList ∧ '@' ∉ "gmal.com".toList ∧
      ("yaho.com", "yahoo.com") ∈ domainTypos ∧
      (emailFinding "yaho.com.yaho.co@yaho.com").suggestions = ["yahoo.com.yaho.co@yahoo.com"] ∧
      (emailFinding "gmal.com@yaho.com").suggestions = ["gmal.com@yahoo.com"] := by
  have hyaho : '@' ∉ "yaho.com.yaho.co".toList := by decide
  have hgmal : '@' ∉ "gmal.com".toList := by decide
  have htypo : ("yaho.com", "yahoo.com") ∈ domainTypos := by decide
  refine ⟨hyaho, hgmal, htypo, ?_, (suggestions_of_typo hgmal htypo).2.2 (by decide)⟩
  exact (suggestions_of_typo hyaho htypo).1.trans (by decide)

/-- The name in front of the at sign is put right along with the domain. -/
theorem name_corrected_with_domain :
    '@' ∉ "gmial.com".toList ∧ ("gmial.com", "gmail.com") ∈ domainTypos ∧
      (emailFinding "gmial.com@gmial.com").suggestions = ["gmail.com@gmail.com"] ∧
      (emailFinding "gmial.com@gmial.com").suggestions ≠ ["gmial.com@gmail.com"] := by
  decide +kernel

end Stencil.Validation
