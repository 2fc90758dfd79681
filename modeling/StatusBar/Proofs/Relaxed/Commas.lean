import StatusBar.Proofs.Relaxed.Marked

/-!
# Trailing commas of a text

What is left of a text without its trailing commas is read token by token.  The next token
tells whether a comma before it is dropped.
-/

namespace StatusBar.Relaxed

open Document (ConsistsOf InOrder IsQuotable IsToken Kind Token isWordChar markKind? consistsOf_cons
  consistsOf_congr)
open Scan (isSpace skipSpace)

/-! ### Commas -/

theorem withoutTrailingCommas_of_ne {c : Char} (hquote : c ≠ '"') (hcomma : c ≠ ',')
    (text : List Char) :
  withoutTrailingCommas (c :: text) = c :: withoutTrailingCommas text
  := by
  simp [withoutTrailingCommas, withoutTrailingCommasFrom]

theorem withoutTrailingCommas_plain {part : List Char} (h : IsPlain part) (text : List Char) :
  withoutTrailingCommas (part ++ text) = part ++ withoutTrailingCommas text
  := by
  induction part with
  | nil => rfl
  | cons c part ih =>
    obtain ⟨hquote, -, hcomma⟩ := h c List.mem_cons_self
    rw [List.cons_append, withoutTrailingCommas_of_ne hquote hcomma,
      ih fun d hd => h d (List.mem_cons_of_mem c hd)]
    rfl

theorem withoutTrailingCommas_comma {text : List Char} :
  withoutTrailingCommas (',' :: text)
    = if closesNext text then withoutTrailingCommas text else ',' :: withoutTrailingCommas text
  := by
  simp [withoutTrailingCommas, withoutTrailingCommasFrom]

theorem withoutTrailingCommasFrom_string {body : List Char} (h : IsQuotable body)
    (text : List Char) :
  withoutTrailingCommasFrom true (body ++ '"' :: text) = body ++ '"' :: withoutTrailingCommas text
  := by
  induction h with
  | nil => rfl
  | char hquote hbackslash _ ih => simp [withoutTrailingCommasFrom, hbackslash, ih]
  | escape c _ ih => simp [withoutTrailingCommasFrom, ih]

/-- A string without an end stays as it is. -/
theorem ErasesComments.keeps_openString {erase : List (Char × Bool) → List Char}
    (he : ErasesComments erase) {region : Region} {text : List Char} (hregion : region = .string)
    (h : ∀ body rest, IsQuotable body → text ≠ body ++ '"' :: rest) :
  withoutTrailingCommasFrom true (erase (marked region text)) = text
  := by
  have hnil : erase [] = [] := he.outside []
  fun_induction marked region text
  case case1 =>
    rw [hnil]
    rfl
  case case6 c rest ih =>
    have hrest := ih rfl fun body rest' hbody heq =>
      h ('\\' :: c :: body) rest' (.escape c hbody) (by rw [heq]; rfl)
    rw [he.cons, he.cons, withoutTrailingCommasFrom, hrest]
  case case7 rest ih => cases h [] rest .nil rfl
  case case8 c rest hescape hquote ih =>
    rw [he.cons]
    by_cases hbackslash : c = '\\'
    · subst hbackslash
      cases rest with
      | nil =>
        rw [marked, hnil]
        rfl
      | cons d rest => cases hescape d rest rfl rfl
    · have hrest := ih rfl fun body rest' hbody heq =>
        h (c :: body) rest' (.char hquote hbackslash hbody) (by rw [heq]; rfl)
      simp [withoutTrailingCommasFrom, hbackslash, hrest]
  all_goals cases hregion

/-- A token stays, if it is not a comma before a closing bracket. -/
theorem withoutTrailingCommas_token (token : Token) {text : List Char}
    (h : token.kind = .separator → closesNext text = false) :
  withoutTrailingCommas (token.chars ++ text) = token.chars ++ withoutTrailingCommas text
  := by
  obtain ⟨kind, chars, htoken⟩ := token
  cases htoken with
  | @mark c _ hmark =>
    by_cases hcomma : c = ','
    · subst hcomma
      cases hmark
      rw [List.singleton_append, withoutTrailingCommas_comma, h rfl]
      rfl
    · have hquote : c ≠ '"' := by
        rintro rfl
        cases hmark
      apply withoutTrailingCommas_of_ne hquote hcomma
  | @quoted body hbody =>
    have hbody := withoutTrailingCommasFrom_string hbody text
    simpa [withoutTrailingCommas, withoutTrailingCommasFrom] using hbody
  | word hword => apply withoutTrailingCommas_plain (isPlain_word hword)

/-- A character that is not a dropped comma stays. -/
theorem exists_eq_cons_of_kept {c : Char} {text : List Char}
    (h : ¬ (c = ',' ∧ closesNext text = true)) :
  ∃ rest, withoutTrailingCommas (c :: text) = c :: rest
  := by
  by_cases hquote : c = '"'
  · use withoutTrailingCommasFrom true text
    rw [hquote]
    rfl
  use withoutTrailingCommas text
  by_cases hcomma : c = ','
  · subst hcomma
    rw [withoutTrailingCommas_comma, if_neg fun hcloses => h ⟨rfl, hcloses⟩]
  · apply withoutTrailingCommas_of_ne hquote hcomma

/-! ### What comes next -/

theorem isBlank_of_isSpace {c : Char} (h : isSpace c = true) :
  Text.isBlank c = true
  := by
  obtain rfl | rfl | rfl | rfl := Document.isSpace_iff.mp h
  all_goals decide

theorem isBlank_eq_false_of_isWordChar {c : Char} (h : isWordChar c = true) :
  Text.isBlank c = false
  := by
  have hval : c.toNat = c.val.toNat := rfl
  have hbounds : '+'.toNat ≤ c.toNat ∧ c.toNat ≤ 'z'.toNat := by
    unfold isWordChar Char.isAlphanum Char.isAlpha Char.isUpper Char.isLower Char.isDigit at h
    simp only [Bool.or_eq_true, Bool.and_eq_true, decide_eq_true_eq, UInt32.le_iff_toNat_le] at h
    obtain ((((h | h) | h) | rfl) | rfl) | rfl := h
    case inr | inl.inr | inl.inl.inr => decide
    all_goals
      simp only [Char.reduceVal, UInt32.reduceToNat, Char.toNat_val, Char.reduceToNat] at h ⊢
      omega
  simp only [Char.reduceToNat] at hbounds
  simp only [Text.isBlank, Text.blankRanges, List.any_cons, List.any_nil, Bool.or_false,
    Bool.or_eq_false_iff, Bool.and_eq_false_imp, decide_eq_true_eq, decide_eq_false_iff_not,
    Nat.not_le]
  omega

theorem isBlank_eq_false_of_isToken {kind : Kind} {c : Char} {chars : List Char}
    (h : IsToken kind (c :: chars)) :
  Text.isBlank c = false
  := by
  cases h with
  | mark h =>
    unfold markKind? at h
    split at h
    case h_7 => cases h
    all_goals decide
  | quoted => decide
  | word h => apply isBlank_eq_false_of_isWordChar (h c List.mem_cons_self)

theorem firstKind_eq_closing_iff {c : Char} :
  Document.firstKind c = .closing ↔ c = '\x7d' ∨ c = ']'
  := by
  constructor
  · intro h
    unfold Document.firstKind markKind? at h
    split at h
    · cases h
    · split at h
      case h_3 => exact .inr rfl
      case h_4 => exact .inl rfl
      all_goals cases h
  · rintro (rfl | rfl)
    all_goals rfl

/-- The next token starts with the next character that is not blank. -/
theorem find?_of_token (token : Token) {text : List Char}
    (h : (skipSpace text).head? = token.chars.head?) :
  text.find? (fun c => !Text.isBlank c) = token.chars.head?
  := by
  induction text with
  | nil => exact h
  | cons d text ih =>
    by_cases hspace : isSpace d
    · rw [Document.skipSpace_cons_of_isSpace hspace] at h
      rw [← ih h]
      simp [isBlank_of_isSpace hspace]
    · rw [Document.skipSpace_cons_of_not_isSpace (by simpa using hspace)] at h
      obtain ⟨kind, chars, htoken⟩ := token
      obtain ⟨c, chars, rfl, -⟩ := htoken.exists_eq_cons
      cases h
      simp [isBlank_eq_false_of_isToken htoken]

/-- Whether a closing bracket comes next is seen from the next token. -/
theorem closesNext_of_find? (token : Token) {text : List Char}
    (h : text.find? (fun c => !Text.isBlank c) = token.chars.head?) :
  closesNext text = decide (token.kind = .closing)
  := by
  obtain ⟨kind, chars, htoken⟩ := token
  obtain ⟨c, chars, rfl, -⟩ := htoken.exists_eq_cons
  have hkind := htoken.firstKind_eq
  subst hkind
  rw [closesNext, h]
  dsimp only [List.head?_cons]
  rw [← Bool.decide_or, decide_eq_decide, firstKind_eq_closing_iff]

/-- A token that may follow where an element has to is no closing bracket. -/
theorem closesNext_of_admits {token : Token} {text : List Char}
    (h : text.find? (fun c => !Text.isBlank c) = token.chars.head?)
    (hadmits : Document.Stage.due.admits token.kind = true) :
  closesNext text = false
  := by
  rw [closesNext_of_find? token h, decide_eq_false_iff_not]
  intro hkind
  rw [hkind] at hadmits
  cases hadmits

theorem closesNext_of_token (token : Token) {text : List Char}
    (h : (skipSpace text).head? = token.chars.head?) :
  closesNext text = decide (token.kind = .closing)
  := closesNext_of_find? token (find?_of_token token h)

/-- Whether a comma is the first character of a text that is not blank. -/
def commaNext (text : List Char) : Bool :=
  text.find? (fun c => !Text.isBlank c) = some ','

theorem commaNext_comma (text : List Char) :
  commaNext (',' :: text) = true
  := rfl

theorem commaNext_gap {gap : List Char} (h : IsGap gap) (text : List Char) :
  commaNext (gap ++ text) = commaNext text
  := by
  induction gap with
  | nil => rfl
  | cons c gap ih =>
    rw [← ih fun d hd => h d (List.mem_cons_of_mem c hd)]
    simp [commaNext, isBlank_of_isSpace (h c List.mem_cons_self)]

theorem commaNext_of_closesNext {text : List Char} (h : closesNext text = true) :
  commaNext text = false
  := by
  unfold closesNext at h
  rw [commaNext, decide_eq_false_iff_not]
  intro hcomma
  rw [hcomma] at h
  cases h

theorem commaNext_of_find? (token : Token) {text : List Char}
    (h : text.find? (fun c => !Text.isBlank c) = token.chars.head?)
    (hcomma : commaNext text = true) :
  token.kind = .separator
  := by
  rw [commaNext, h, decide_eq_true_eq] at hcomma
  obtain ⟨rest, hchars⟩ := List.head?_eq_some_iff.mp hcomma
  have htoken := token.isToken
  rw [hchars] at htoken
  rw [← htoken.firstKind_eq]
  rfl

/-! ### What is left -/

theorem consistsOf_withoutTrailingCommas_gap {gap : List Char} (hgap : IsGap gap)
    {text : List Char} {tokens : List Token} :
  ConsistsOf (withoutTrailingCommas (gap ++ text)) tokens
    ↔ ConsistsOf (withoutTrailingCommas text) tokens
  := by
  rw [withoutTrailingCommas_plain hgap.isPlain]
  apply consistsOf_congr (hgap.skipSpace_append _)

theorem consistsOf_withoutTrailingCommas_space {c : Char} (hc : isSpace c = true)
    {text : List Char} {tokens : List Token} :
  ConsistsOf (withoutTrailingCommas (c :: text)) tokens
    ↔ ConsistsOf (withoutTrailingCommas text) tokens
  := consistsOf_withoutTrailingCommas_gap (isGap_singleton hc)

theorem consistsOf_space {c : Char} (hc : isSpace c = true) {text : List Char}
    {tokens : List Token} :
  ConsistsOf (c :: text) tokens ↔ ConsistsOf text tokens
  := consistsOf_congr (Document.skipSpace_cons_of_isSpace hc text)

theorem eq_nil_of_gap {gap : List Char} (hgap : IsGap gap) {tokens : List Token}
    (h : ConsistsOf (withoutTrailingCommas gap) tokens) :
  tokens = []
  := by
  rw [← List.append_nil gap, consistsOf_withoutTrailingCommas_gap hgap] at h
  cases tokens with
  | nil => rfl
  | cons token tokens =>
    obtain ⟨text', hskip, -, -⟩ := consistsOf_cons.mp h
    obtain ⟨c, chars, hchars, -⟩ := token.isToken.exists_eq_cons
    rw [hchars] at hskip
    cases hskip

theorem head?_of_consistsOf {c : Char} {text : List Char} {token : Token} {tokens : List Token}
    (hc : isSpace c = false) (h : ConsistsOf (c :: text) (token :: tokens)) :
  token.chars.head? = some c
  := by
  obtain ⟨text', hskip, -, -⟩ := consistsOf_cons.mp h
  rw [Document.skipSpace_cons_of_not_isSpace hc] at hskip
  rw [← token.head?_append text', ← hskip]
  rfl

/-- The next character that is not blank starts the next token, if it is not a comma that is
dropped. -/
theorem find?_of_consistsOf {text : List Char} {token : Token} {tokens : List Token}
    (h : ConsistsOf (withoutTrailingCommas text) (token :: tokens)) :
  text.find? (fun c => !Text.isBlank c) = token.chars.head?
    ∨ commaNext text = true ∧ token.kind = .closing
  := by
  induction text with
  | nil =>
    obtain ⟨text', hskip, -, -⟩ := consistsOf_cons.mp h
    obtain ⟨c, chars, hchars, -⟩ := token.isToken.exists_eq_cons
    rw [hchars] at hskip
    cases hskip
  | cons c text ih =>
    by_cases hspace : isSpace c = true
    · rw [consistsOf_withoutTrailingCommas_space hspace] at h
      simpa [commaNext, isBlank_of_isSpace hspace] using ih h
    rw [Bool.not_eq_true] at hspace
    by_cases hcomma : c = ',' ∧ closesNext text = true
    · obtain ⟨rfl, hcloses⟩ := hcomma
      rw [withoutTrailingCommas_comma, if_pos hcloses] at h
      right
      use rfl
      obtain hfind | ⟨-, hkind⟩ := ih h
      · rw [closesNext_of_find? token hfind, decide_eq_true_eq] at hcloses
        exact hcloses
      · exact hkind
    left
    obtain ⟨rest, hrest⟩ := exists_eq_cons_of_kept hcomma
    rw [hrest] at h
    have hhead := head?_of_consistsOf hspace h
    obtain ⟨chars, hchars⟩ := List.head?_eq_some_iff.mp hhead
    have htoken := token.isToken
    rw [hchars] at htoken
    rw [hhead, List.find?_cons, isBlank_eq_false_of_isToken htoken]
    rfl

/-- Where an element has to follow, no comma comes next. -/
theorem commaNext_of_due {text : List Char} {tokens : List Token}
    (htokens : ConsistsOf (withoutTrailingCommas text) tokens)
    (horder : InOrder .due tokens .done) :
  commaNext text = false
  := by
  cases tokens with
  | nil => cases horder
  | cons token tokens =>
    obtain ⟨hadmits, -⟩ := horder
    rw [Bool.eq_false_iff]
    intro hcomma
    obtain hfind | ⟨-, hkind⟩ := find?_of_consistsOf htokens
    · rw [commaNext_of_find? token hfind hcomma] at hadmits
      cases hadmits
    · rw [hkind] at hadmits
      cases hadmits

theorem closing_of_closesNext {text : List Char} {token : Token} {tokens : List Token}
    (h : closesNext text = true)
    (htokens : ConsistsOf (withoutTrailingCommas text) (token :: tokens)) :
  token.kind = .closing
  := by
  obtain hfind | ⟨-, hkind⟩ := find?_of_consistsOf htokens
  · rw [closesNext_of_find? token hfind, decide_eq_true_eq] at h
    exact h
  · exact hkind

theorem markKind?_of_closing {token : Token} (h : token.kind = .closing) {c : Char}
    {chars : List Char} (hchars : token.chars = c :: chars) :
  markKind? c = some .closing
  := by
  obtain ⟨kind, whole, htoken⟩ := token
  obtain rfl : kind = .closing := h
  cases htoken with
  | mark hmark =>
    cases hchars
    exact hmark

/-- A text with a closing bracket next is not blank. -/
theorem ne_nil_of_closesNext {text : List Char} {tokens : List Token}
    (h : closesNext text = true) (htokens : ConsistsOf (withoutTrailingCommas text) tokens) :
  tokens ≠ []
  := by
  rintro rfl
  rw [Document.consistsOf_nil] at htokens
  induction text with
  | nil => cases h
  | cons c text ih =>
    have hkept : ¬ (c = ',' ∧ closesNext text = true) := by
      rintro ⟨rfl, -⟩
      cases h
    by_cases hspace : isSpace c = true
    · apply ih
      · simpa [closesNext, isBlank_of_isSpace hspace] using h
      · apply Document.consistsOf_nil.mp
        apply (consistsOf_withoutTrailingCommas_space hspace).mp
        apply Document.consistsOf_nil.mpr htokens
    · obtain ⟨rest, hrest⟩ := exists_eq_cons_of_kept hkept
      rw [hrest, Document.skipSpace_cons_of_not_isSpace (by simpa using hspace)] at htokens
      cases htokens

/-! ### Commas without an element -/

/-- Whether a comma comes first after an opening bracket, from a place on that lies inside a
string or outside. -/
def leadsWithComma : (inString : Bool) → List Char → Bool
  | _, [] => false
  | true, '\\' :: _ :: rest => leadsWithComma true rest
  | true, '"' :: rest => leadsWithComma false rest
  | true, _ :: rest => leadsWithComma true rest
  | false, '"' :: rest => leadsWithComma true rest
  | false, c :: rest =>
    (markKind? c = some .opening && commaNext rest) || leadsWithComma false rest

theorem leadsWithComma_plain {part : List Char} (hpart : IsPlain part)
    (hmark : ∀ c ∈ part, markKind? c = none) (text : List Char) :
  leadsWithComma false (part ++ text) = leadsWithComma false text
  := by
  induction part with
  | nil => rfl
  | cons c part ih =>
    obtain ⟨hquote, -, -⟩ := hpart c List.mem_cons_self
    have hc := hmark c List.mem_cons_self
    have hrest := ih (fun d hd => hpart d (List.mem_cons_of_mem c hd))
      (fun d hd => hmark d (List.mem_cons_of_mem c hd))
    simpa [leadsWithComma, hc] using hrest

theorem leadsWithComma_gap {gap : List Char} (h : IsGap gap) (text : List Char) :
  leadsWithComma false (gap ++ text) = leadsWithComma false text
  := by
  apply leadsWithComma_plain h.isPlain
  intro c hc
  obtain rfl | rfl | rfl | rfl := Document.isSpace_iff.mp (h c hc)
  all_goals rfl

theorem leadsWithComma_space {c : Char} (hc : isSpace c = true) (text : List Char) :
  leadsWithComma false (c :: text) = leadsWithComma false text
  := leadsWithComma_gap (isGap_singleton hc) text

theorem leadsWithComma_string {body : List Char} (h : IsQuotable body) (text : List Char) :
  leadsWithComma true (body ++ '"' :: text) = leadsWithComma false text
  := by
  induction h with
  | nil => rfl
  | char hquote hbackslash _ ih => simpa [leadsWithComma, hbackslash] using ih
  | escape c _ ih => simpa [leadsWithComma] using ih

theorem leadsWithComma_token (token : Token) (text : List Char) :
  leadsWithComma false (token.chars ++ text)
    = ((token.kind = .opening && commaNext text) || leadsWithComma false text)
  := by
  obtain ⟨kind, chars, htoken⟩ := token
  cases htoken with
  | @mark c _ hmark =>
    have hquote : c ≠ '"' := by
      rintro rfl
      cases hmark
    simp [leadsWithComma, hmark]
  | quoted hbody =>
    simpa [leadsWithComma] using leadsWithComma_string hbody text
  | word hword =>
    have hplain := leadsWithComma_plain (isPlain_word hword) ?_ text
    · simpa using hplain
    · intro c hc
      rw [Option.eq_none_iff_forall_ne_some]
      intro kind hkind
      have hfalse := Document.isWordChar_eq_false_of_markKind? hkind
      rw [hword c hc] at hfalse
      cases hfalse

end StatusBar.Relaxed
