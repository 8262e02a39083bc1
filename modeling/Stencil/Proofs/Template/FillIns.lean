import Stencil.Proofs.Placeholder.Matchers
import Stencil.Proofs.Template.Extraction

/-!
# No fill-in point is lost

Wherever a fill-in point stands in a text (`FillIn`), normalizing leaves it there but for its
blanks, and no line feed is left inside.  So its matcher finds it, whatever stands around it, and a
variable has its key (`mem_keys_matchPatterns`), exactly one (`matchPatterns_fillIn`).
-/

namespace Stencil

open Placeholder Text Pattern

namespace Placeholder

/-- What may stand between two words in square brackets: spaces, or blanks with a line end. -/
def IsGap (g : List Char) : Prop := IsSpaces g ∨ (allBlank g = true ∧ ('\r' ∈ g ∨ '\n' ∈ g))

/-- The token is a fill-in point around the text `inner`: any text without braces in double braces,
any text without angle brackets in the tags of a variable, or words of capitals in square brackets,
which may stand on several lines. -/
inductive FillIn : (token inner : List Char) → Prop
  | braces {inner : List Char} (h : ∀ c ∈ inner, c ≠ '\x7b' ∧ c ≠ '\x7d') :
      FillIn (doubleBrace.token inner) inner
  | tags {inner : List Char} (h : ∀ c ∈ inner, c ≠ '<' ∧ c ≠ '>') :
      FillIn (variableTag.token inner) inner
  | brackets {lead first more trail : List Char} (hlead : allBlank lead = true)
      (hfirst : IsFirstWord first) (hmore : GapWords IsGap more) (htrail : allBlank trail = true) :
      FillIn (capsBracket.token (lead ++ (first ++ (more ++ trail))))
        (lead ++ (first ++ (more ++ trail)))

/-! ## Words on several lines -/

theorem lineFeed_mem_lineFeeds {s : List Char} (h : '\r' ∈ s ∨ '\n' ∈ s) : '\n' ∈ lineFeeds s := by
  fun_induction lineFeeds s with
  | case1 => simp at h
  | case2 | case3 => exact List.mem_cons_self
  | case4 c rest _ hc ih =>
    rw [List.mem_cons, List.mem_cons] at h
    rcases h with (h | h) | h | h
    · exact absurd h.symm hc
    · exact List.mem_cons_of_mem _ (ih (.inl h))
    · exact h ▸ List.mem_cons_self
    · exact List.mem_cons_of_mem _ (ih (.inr h))

theorem IsGap.allBlank {g : List Char} (h : IsGap g) : allBlank g = true :=
  h.elim IsSpaces.allBlank And.left

/-- A gap that is rewritten without a line feed is one of spaces. -/
theorem IsGap.rewritten {g g' : List Char} (h : IsGap g) (hrewrites : Rewrites g g')
    (hfeed : '\n' ∉ g') : IsSpaces g' := by
  rcases h with hspaces | ⟨-, hend⟩
  · have hnone {c : Char} (hc : c ≠ ' ') : c ∉ g := fun hmem => hc (hspaces.2 c hmem)
    rw [Rewrites, lineFeeds_eq_self (hnone (by decide))] at hrewrites
    rcases hrewrites with rfl | ⟨hmem, -⟩
    · exact hspaces
    · exact absurd hmem (hnone (by decide))
  · rcases hrewrites with rfl | ⟨-, rfl⟩
    · exact absurd (lineFeed_mem_lineFeeds hend) hfeed
    · exact ⟨by decide, by simp⟩

theorem IsCapsWord.solid {w : List Char} (h : IsCapsWord w) : ∀ c ∈ w, isBlank c = false :=
  fun c hc => isBlank_of_capitals (h.2 c hc)

/-- Words behind gaps that are rewritten without a line feed are words behind spaces. -/
theorem GapWords.rewritten {more trail s' : List Char} (h : GapWords IsGap more)
    (htrail : allBlank trail = true) (hs : Respaced Rewrites (more ++ trail) s')
    (hfeed : '\n' ∉ s') :
    ∃ more' trail', s' = more' ++ trail' ∧ GapWords IsSpaces more' ∧ allBlank trail' = true := by
  induction h generalizing s' with
  | nil => exact ⟨[], s', rfl, .nil, (hs.of_allBlank htrail).2⟩
  | @cons g w more hgap hword hmore ih =>
    rw [List.append_assoc, List.append_assoc] at hs
    obtain ⟨g', z', rfl, hg, hz⟩ := hs.split_word tight_rewrites hword.solid hword.1
    simp only [List.mem_append, not_or] at hfeed
    obtain ⟨more', trail', rfl, hmore', htrail'⟩ := ih hz hfeed.2.2
    have hspaces := hgap.rewritten (hg.of_allBlank hgap.allBlank).1 hfeed.1
    exact ⟨g' ++ (w ++ more'), trail', by simp, .cons hspaces hword hmore', htrail'⟩

/-! ## Fill-in points -/

/-- A sealed token is found in a normalized text if what stands inside can still be read there. -/
theorem Matcher.Seeks.mem_find_normalize {m : Matcher} {e : Enclosure} {p : Pattern}
    (hm : m.Seeks e p) (he : e.Sealed) {x inner y : List Char}
    (hunbroken : e.Unbroken (normalize (x ++ (e.token inner ++ y))))
    (hspells : Spells e.inner inner) (hkey : key inner ≠ [])
    (hframed : ∀ inner', Respaced Rewrites inner inner' → '\n' ∉ inner' → key inner' ≠ [] →
      ∃ name, Framed p inner' name) :
    ∃ c ∈ m.find (normalize (x ++ (e.token inner ++ y))), key c.name = key inner := by
  obtain ⟨x', inner', y', hplace, hspells', -, hinner⟩ :=
    he.token_of_respaced tight_rewrites (respaced_normalize _) hspells
  have hkey' : key inner' = key inner := key_eq_of_respaced hinner
  rw [← hkey'] at hkey ⊢
  obtain ⟨name, hname⟩ := hframed inner' hinner (hunbroken _ _ _ hplace hspells') hkey
  rw [hplace]
  exact hm.mem_find he hname hkey

/-- Where the text inside is free of given characters, nothing else is asked of it. -/
theorem Matcher.Seeks.mem_find_noneOf {m : Matcher} {e : Enclosure} {cs : List Char}
    (hm : m.Seeks e (few1 (.noneOf cs))) (he : e.Sealed) (hinside : e.inner = many (.noneOf cs))
    {x inner y : List Char} (hunbroken : e.Unbroken (normalize (x ++ (e.token inner ++ y))))
    (hfree : ∀ c ∈ inner, c ∉ cs) (hkey : key inner ≠ []) :
    ∃ c ∈ m.find (normalize (x ++ (e.token inner ++ y))), key c.name = key inner := by
  have hspells : Spells e.inner inner := by
    rw [hinside]
    exact spells_many_noneOf_iff.2 hfree
  refine hm.mem_find_normalize he hunbroken hspells hkey fun inner' hinner _ hkey' => ?_
  have hspells' := he.respaced _ _ _ hinner hspells
  rw [hinside, spells_many_noneOf_iff] at hspells'
  refine ⟨inner', .of_spells (spells_few1_noneOf_iff.2 ⟨?_, hspells'⟩)⟩
  rintro rfl
  exact hkey' rfl

/-- What stands inside is part of the token. -/
theorem FillIn.allBlank {token inner : List Char} (h : FillIn token inner)
    (hblank : allBlank token = true) : allBlank inner = true := by
  have hinside {e : Enclosure} {inner : List Char} (hblank : Text.allBlank (e.token inner) = true) :
      Text.allBlank inner = true := by
    rw [Enclosure.token, allBlank_append, allBlank_append] at hblank
    exact hblank.2.1
  cases h <;> exact hinside hblank

/-- Every fill-in point of a text is a candidate in the normalized text. -/
theorem FillIn.exists_candidate {token inner s : List Char} (h : FillIn token inner)
    (hs : token <:+: s) (hkey : key inner ≠ []) :
    ∃ c ∈ Catalog.standard.findAll (normalize s), key c.name = key inner := by
  obtain ⟨x, y, rfl⟩ := hs
  rw [List.append_assoc]
  obtain ⟨hbraces, htags, hcaps⟩ := unbroken_normalize (x ++ (token ++ y))
  simp only [mem_findAll_standard]
  cases h with
  | braces h =>
    obtain ⟨c, hc, hfound⟩ := seeks_doubleBrace.mem_find_noneOf sealed_doubleBrace rfl hbraces
      (fun c hc => by simpa using h c hc) hkey
    exact ⟨c, .inl hc, hfound⟩
  | tags h =>
    obtain ⟨c, hc, hfound⟩ := seeks_variableTag.mem_find_noneOf sealed_variableTag rfl htags
      (fun c hc => by simpa using h c hc) hkey
    exact ⟨c, .inr (.inl hc), hfound⟩
  | @brackets lead first more trail hlead hfirst hmore htrail =>
    have hspells : Spells capsBracket.inner (lead ++ (first ++ (more ++ trail))) :=
      spells_capsBracket_of_words (fun _ => IsGap.allBlank) hlead hfirst hmore htrail
    have hframed : ∀ inner', Respaced Rewrites (lead ++ (first ++ (more ++ trail))) inner' →
        '\n' ∉ inner' → ∃ name, Framed capsName inner' name := by
      intro inner' hinner hfeed
      obtain ⟨lead', z', rfl, hlead', hz⟩ :=
        hinner.split_word tight_rewrites hfirst.1.solid hfirst.1.1
      simp only [List.mem_append, not_or] at hfeed
      obtain ⟨more', trail', rfl, hmore', htrail'⟩ := hmore.rewritten htrail hz hfeed.2.2
      exact ⟨first ++ more', lead', trail', by simp, (hlead'.of_allBlank hlead).2,
        spells_capsName_iff.2 ⟨first, more', rfl, hfirst, hmore'⟩, htrail'⟩
    obtain ⟨c, hc, hfound⟩ := seeks_capsBracket.mem_find_normalize sealed_capsBracket hcaps hspells
      hkey fun inner' hinner hfeed _ => hframed inner' hinner hfeed
    exact ⟨c, .inr (.inr (.inl hc)), hfound⟩

/-- Every candidate but those between underscores is a fill-in point. -/
theorem exists_fillIn_of_mem_findAll {s : List Char} {c : Candidate}
    (hc : c ∈ Catalog.standard.findAll s) (hmatcher : c.matcher ≠ "double_underscore") :
    ∃ inner, FillIn c.rawPattern inner ∧ key c.name = key inner := by
  rcases mem_findAll_standard.1 hc with hfind | hfind | hfind | hfind
  · obtain ⟨-, inner, -, -, hraw, hkey, name, hframed⟩ :=
      seeks_doubleBrace.of_mem_find sealed_doubleBrace hfind
    have hall := spells_many_noneOf_iff.1 (seeks_doubleBrace.spells inner name hframed)
    exact ⟨inner, hraw ▸ .braces fun d hd => by simpa using hall d hd, hkey⟩
  · obtain ⟨-, inner, -, -, hraw, hkey, name, hframed⟩ :=
      seeks_variableTag.of_mem_find sealed_variableTag hfind
    have hall := spells_many_noneOf_iff.1 (seeks_variableTag.spells inner name hframed)
    exact ⟨inner, hraw ▸ .tags fun d hd => by simpa using hall d hd, hkey⟩
  · obtain ⟨-, inner, -, -, hraw, hkey, name, lead, trail, rfl, hlead, hname, htrail⟩ :=
      seeks_capsBracket.of_mem_find sealed_capsBracket hfind
    obtain ⟨first, more, rfl, hfirst, hmore⟩ := spells_capsName_iff.1 hname
    rw [List.append_assoc] at hraw hkey
    exact ⟨_, hraw ▸ .brackets hlead hfirst (hmore.mono fun _ => .inl) htrail, hkey⟩
  · obtain ⟨-, -, -, -, hname⟩ := Matcher.exists_match_of_mem_find hfind
    exact absurd hname hmatcher

end Placeholder

namespace Extractor

theorem nodup_keys_matchPatterns (e : Extractor) (s : List Char) :
    ((e.matchPatterns s).map Variable.key).Nodup := by
  unfold matchPatterns
  split
  · exact List.nodup_nil
  · exact Variable.nodup_keys_firstClaims _

section

variable {e : Extractor} (hcatalog : e.catalog = .standard) {token inner s : List Char}

include hcatalog

/-- The key of every fill-in point of a text is that of a variable. -/
theorem mem_keys_matchPatterns (hfill : FillIn token inner) (hs : token <:+: s)
    (hkey : key inner ≠ []) : key inner ∈ (e.matchPatterns s).map Variable.key := by
  have hblank : allBlank s = false := by
    rw [← Bool.not_eq_true]
    intro hblank
    obtain ⟨x, y, rfl⟩ := hs
    rw [allBlank_append, allBlank_append] at hblank
    exact hkey (key_of_allBlank (hfill.allBlank hblank.1.2))
  obtain ⟨c, hc, hcandidate⟩ := hfill.exists_candidate hs hkey
  rw [matchPatterns_eq e hblank, Variable.mem_keys_firstClaims, candidates, hcatalog]
  exact ⟨hkey, List.mem_map.2 ⟨.ofCandidate c, List.mem_map_of_mem hc,
    (Variable.key_ofCandidate c).trans hcandidate⟩⟩

/-- **No fill-in point is lost.**  Wherever a fill-in point with a key stands in a text, alone or
inside, across or next to others, and wherever its lines are broken, exactly one of the variables
that are found in the text has its key. -/
theorem matchPatterns_fillIn (hfill : FillIn token inner) (hs : token <:+: s)
    (hkey : key inner ≠ []) :
    ∃ v, (e.matchPatterns s).filter (fun v => v.key = key inner) = [v] := by
  obtain ⟨v, hv, hvkey⟩ := List.mem_map.1 (mem_keys_matchPatterns hcatalog hfill hs hkey)
  rw [← hvkey]
  exact ⟨v, filter_of_nodup (nodup_keys_matchPatterns e s) hv⟩

end

/-- Brackets with a broken line inside a tag, and braces with a name of the same key: three fill-in
points and one variable. -/
theorem matchPatterns_fillIn_nested :
    let words := " OUR\r\n NAME".toList
    let bracketed := capsBracket.token words
    let tagged := variableTag.token bracketed
    let braced := doubleBrace.token " our-name\n".toList
    let s := "By ".toList ++ (tagged ++ ('.' :: braced))
    (FillIn bracketed words ∧ FillIn tagged bracketed ∧ FillIn braced " our-name\n".toList) ∧
      (key words = "ourname".toList ∧ key bracketed = "ourname".toList ∧
        key " our-name\n".toList = "ourname".toList) ∧
      (∃ v, (({} : Extractor).matchPatterns s).filter (fun v => v.key = key words) = [v]) ∧
      (∃ v, (({} : Extractor).matchPatterns s).filter (fun v => v.key = key bracketed) = [v]) ∧
      ∃ v, (({} : Extractor).matchPatterns s).filter
        (fun v => v.key = key " our-name\n".toList) = [v] := by
  intro words bracketed tagged braced s
  have hbracketed : FillIn bracketed words := by
    have hcapitals {w : List Char} (h : w.all capitals.has = true) :
        ∀ c ∈ w, capitals.has c = true := List.all_eq_true.1 h
    have hfirst : IsFirstWord ['O', 'U', 'R'] :=
      ⟨⟨by decide, hcapitals (by decide)⟩, by simp [has_capitalStarts_iff]⟩
    have hgap : IsGap ['\r', '\n', ' '] := .inr ⟨by decide, by decide⟩
    have hword : IsCapsWord ['N', 'A', 'M', 'E'] := ⟨by decide, hcapitals (by decide)⟩
    have hlead : allBlank [' '] = true := by decide
    have htrail : allBlank [] = true := rfl
    exact .brackets hlead hfirst (.cons hgap hword .nil) htrail
  have hnone {d d' : Char} {w : List Char} (h : w.all (fun c => c != d && c != d') = true) :
      ∀ c ∈ w, c ≠ d ∧ c ≠ d' := by simpa using h
  have htagged : FillIn tagged bracketed := .tags (hnone (by decide))
  have hbraced : FillIn braced " our-name\n".toList := .braces (hnone (by decide))
  have hkeys : key words = "ourname".toList ∧ key bracketed = "ourname".toList ∧
      key " our-name\n".toList = "ourname".toList := by decide
  refine ⟨⟨hbracketed, htagged, hbraced⟩, hkeys, ?_, ?_, ?_⟩
  · refine matchPatterns_fillIn rfl hbracketed ?_ (by rw [hkeys.1]; decide)
    exact ⟨"By <variable>".toList, "</variable>.\x7b\x7b our-name\n\x7d\x7d".toList, by decide⟩
  · refine matchPatterns_fillIn rfl htagged ?_ (by rw [hkeys.2.1]; decide)
    exact ⟨"By ".toList, '.' :: braced, by simp [s]⟩
  · refine matchPatterns_fillIn rfl hbraced ?_ (by rw [hkeys.2.2]; decide)
    exact ⟨"By ".toList ++ (tagged ++ ['.']), [], by simp [s]⟩

end Extractor

end Stencil
