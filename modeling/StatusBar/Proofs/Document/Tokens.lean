import StatusBar.Document.Reader
import Mathlib.Data.List.DropRight
import Mathlib.Tactic.Use

/-!
# Tokens

A text is spelled by tokens: brackets, commas, colons, strings and words, each after any
spaces.  A word is a numeral or one of `null`, `true` and `false`, and ends where its
characters end.  `InOrder` says which tokens may follow each other, as far as this can be
told from one token to the next.
-/

namespace StatusBar.Document

open Scan

/-! ### The shape of a token -/

/-- Whether a character may stand in a word. -/
def isWordChar (c : Char) : Bool :=
  c.isAlphanum || c = '+' || c = '-' || c = '.'

/-- A text does not go on with a character of a word. -/
def Stops (text : List Char) : Prop :=
  ∀ c ∈ text.head?, isWordChar c = false

/-- What may stand between the quotes of a string: a backslash takes the character after it. -/
inductive IsQuotable : List Char → Prop where
  | nil : IsQuotable []
  | char {c : Char} {body : List Char} (hquote : c ≠ '"') (hbackslash : c ≠ '\\')
      (h : IsQuotable body) : IsQuotable (c :: body)
  | escape (c : Char) {body : List Char} (h : IsQuotable body) : IsQuotable ('\\' :: c :: body)

/-- The kinds of tokens. -/
inductive Kind where
  | opening
  | closing
  | separator
  | quoted
  | word
  deriving DecidableEq, Repr

/-- The kind of a token of one character that is neither a string nor a word. -/
def markKind? : Char → Option Kind
  | '[' => some .opening
  | '\x7b' => some .opening
  | ']' => some .closing
  | '\x7d' => some .closing
  | ',' => some .separator
  | ':' => some .separator
  | _ => none

/-- These characters make a token of this kind. -/
inductive IsToken : Kind → List Char → Prop where
  | mark {c : Char} {kind : Kind} (h : markKind? c = some kind) : IsToken kind [c]
  | quoted {body : List Char} (h : IsQuotable body) : IsToken .quoted ('"' :: (body ++ ['"']))
  | word {c : Char} {chars : List Char} (h : ∀ d ∈ c :: chars, isWordChar d = true) :
      IsToken .word (c :: chars)

/-- A token. -/
structure Token where
  kind : Kind
  chars : List Char
  isToken : IsToken kind chars

/-- A word ends before this text. -/
def Token.EndsBefore (token : Token) (text : List Char) : Prop :=
  token.kind = .word → Stops text

/-! ### Single characters -/

theorem isWordChar_eq_false_of_markKind? {c : Char} {kind : Kind} (h : markKind? c = some kind) :
  isWordChar c = false
  := by
  unfold markKind? at h
  split at h
  all_goals first | decide | cases h

theorem not_word_of_markKind? {c : Char} {kind : Kind} (h : markKind? c = some kind) :
  kind ≠ .quoted ∧ kind ≠ .word
  := by
  unfold markKind? at h
  split at h
  all_goals cases h
  all_goals decide

theorem isSpace_iff {c : Char} :
  isSpace c = true ↔ c = ' ' ∨ c = '\t' ∨ c = '\n' ∨ c = '\r'
  := by
  simp [isSpace, or_assoc]

theorem isWordChar_eq_false_of_isSpace {c : Char} (h : isSpace c = true) :
  isWordChar c = false
  := by
  obtain rfl | rfl | rfl | rfl := isSpace_iff.mp h
  all_goals decide

/-- The kind of the tokens that start with a character, if there are any. -/
def firstKind (c : Char) : Kind :=
  if c = '"' then .quoted else (markKind? c).getD .word

theorem IsToken.firstKind_eq {kind : Kind} {c : Char} {chars : List Char}
    (h : IsToken kind (c :: chars)) :
  firstKind c = kind
  := by
  cases h with
  | mark h =>
    have hquote : c ≠ '"' := by
      rintro rfl
      cases h
    simp [firstKind, hquote, h]
  | quoted => rfl
  | word h =>
    have hword : isWordChar c = true := h c List.mem_cons_self
    have hquote : c ≠ '"' := by
      rintro rfl
      cases hword
    have hmark : markKind? c = none := by
      rw [Option.eq_none_iff_forall_ne_some]
      intro kind hkind
      rw [isWordChar_eq_false_of_markKind? hkind] at hword
      cases hword
    simp [firstKind, hquote, hmark]

/-- A token starts with a character that is no space. -/
theorem IsToken.exists_eq_cons {kind : Kind} {chars : List Char} (h : IsToken kind chars) :
  ∃ c rest, chars = c :: rest ∧ isSpace c = false
  := by
  cases h with
  | @mark c _ h =>
    use c, [], rfl
    rw [Bool.eq_false_iff]
    intro hspace
    obtain rfl | rfl | rfl | rfl := isSpace_iff.mp hspace
    all_goals cases h
  | @quoted body =>
    use '"', body ++ ['"'], rfl
    decide
  | @word c chars h =>
    use c, chars, rfl
    rw [Bool.eq_false_iff]
    intro hspace
    have hword := h c List.mem_cons_self
    rw [isWordChar_eq_false_of_isSpace hspace] at hword
    cases hword

/-! ### A text has one first token -/

theorem stops_nil :
  Stops []
  := by
  rintro c ⟨⟩

theorem stops_cons {c : Char} {text : List Char} :
  Stops (c :: text) ↔ isWordChar c = false
  := by
  simp [Stops]

theorem IsQuotable.eq_of_append {body body' text text' : List Char} (hbody : IsQuotable body)
    (hbody' : IsQuotable body') (h : body ++ '"' :: text = body' ++ '"' :: text') :
  body = body' ∧ text = text'
  := by
  induction hbody generalizing body' with
  | nil =>
    cases hbody' with
    | nil =>
      injection h with _ htext
      exact ⟨rfl, htext⟩
    | char hquote =>
      injection h with hc
      cases hquote hc.symm
    | escape =>
      injection h with hc
      cases hc
  | char hquote hbackslash _ ih =>
    cases hbody' with
    | nil =>
      injection h with hc
      cases hquote hc
    | char _ _ hbody' =>
      injection h with hc h
      obtain ⟨rfl, rfl⟩ := ih hbody' h
      subst hc
      exact ⟨rfl, rfl⟩
    | escape =>
      injection h with hc
      cases hbackslash hc
  | escape c _ ih =>
    cases hbody' with
    | nil =>
      injection h with hc
      cases hc
    | char _ hbackslash =>
      injection h with hc
      cases hbackslash hc.symm
    | escape c' hbody' =>
      injection h with _ h
      injection h with hc h
      obtain ⟨rfl, rfl⟩ := ih hbody' h
      subst hc
      exact ⟨rfl, rfl⟩

theorem eq_of_append_of_stops {word word' text text' : List Char}
    (hword : ∀ c ∈ word, isWordChar c = true) (hword' : ∀ c ∈ word', isWordChar c = true)
    (htext : Stops text) (htext' : Stops text') (h : word ++ text = word' ++ text') :
  word = word' ∧ text = text'
  := by
  induction word generalizing word' with
  | nil =>
    cases word' with
    | nil => exact ⟨rfl, h⟩
    | cons c word' =>
      subst h
      rw [List.cons_append, stops_cons] at htext
      rw [hword' c (by simp)] at htext
      cases htext
  | cons c word ih =>
    cases word' with
    | nil =>
      subst h
      rw [List.cons_append, stops_cons] at htext'
      rw [hword c (by simp)] at htext'
      cases htext'
    | cons c' word' =>
      injection h with hc h
      obtain ⟨rfl, rfl⟩ := ih (fun d hd => hword d (by simp [hd]))
        (fun d hd => hword' d (by simp [hd])) h
      subst hc
      exact ⟨rfl, rfl⟩

theorem IsToken.eq_of_append {kind : Kind} {chars chars' text text' : List Char}
    (hchars : IsToken kind chars) (hchars' : IsToken kind chars')
    (htext : kind = .word → Stops text) (htext' : kind = .word → Stops text')
    (h : chars ++ text = chars' ++ text') :
  chars = chars' ∧ text = text'
  := by
  cases hchars with
  | mark hmark =>
    cases hchars' with
    | mark =>
      injection h with hc htext
      subst hc
      exact ⟨rfl, htext⟩
    | quoted => cases (not_word_of_markKind? hmark).left rfl
    | word => cases (not_word_of_markKind? hmark).right rfl
  | @quoted body hbody =>
    cases hchars' with
    | mark hmark => cases (not_word_of_markKind? hmark).left rfl
    | @quoted body' hbody' =>
      have hquoted : body ++ '"' :: text = body' ++ '"' :: text' := by simpa using h
      obtain ⟨rfl, rfl⟩ := hbody.eq_of_append hbody' hquoted
      exact ⟨rfl, rfl⟩
  | word hword =>
    cases hchars' with
    | mark hmark => cases (not_word_of_markKind? hmark).right rfl
    | word hword' => apply eq_of_append_of_stops hword hword' (htext rfl) (htext' rfl) h

/-- A text has one first token. -/
theorem Token.eq_of_append {token token' : Token} {text text' : List Char}
    (hends : token.EndsBefore text) (hends' : token'.EndsBefore text')
    (h : token.chars ++ text = token'.chars ++ text') :
  token = token' ∧ text = text'
  := by
  obtain ⟨kind, chars, htoken⟩ := token
  obtain ⟨kind', chars', htoken'⟩ := token'
  dsimp only at h
  have hkind : kind = kind' := by
    obtain ⟨c, rest, rfl, -⟩ := htoken.exists_eq_cons
    obtain ⟨c', rest', rfl, -⟩ := htoken'.exists_eq_cons
    injection h with hc
    rw [← htoken.firstKind_eq, ← htoken'.firstKind_eq, hc]
  subst hkind
  obtain ⟨rfl, htext⟩ := htoken.eq_of_append htoken' hends hends' h
  exact ⟨rfl, htext⟩

/-! ### Texts spelled by tokens -/

/-- A text starts with these tokens, each after any spaces, and goes on with `rest`. -/
def Spells : (tokens : List Token) → (text rest : List Char) → Prop
  | [], text, rest => text = rest
  | token :: tokens, text, rest =>
    ∃ text', skipSpace text = token.chars ++ text' ∧ token.EndsBefore text'
      ∧ Spells tokens text' rest

/-- A text consists of these tokens, with any spaces around them. -/
def ConsistsOf (text : List Char) (tokens : List Token) : Prop :=
  ∃ rest, Spells tokens text rest ∧ skipSpace rest = []

/-- A token of one character that is neither a string nor a word. -/
def Token.mark (c : Char) {kind : Kind} (h : markKind? c = some kind) : Token :=
  ⟨kind, [c], .mark h⟩

theorem Token.endsBefore_mark {c : Char} {kind : Kind} (h : markKind? c = some kind)
    (text : List Char) :
  (Token.mark c h).EndsBefore text
  := by
  intro hword
  cases (not_word_of_markKind? h).right hword

theorem spells_mark {c : Char} {kind : Kind} (h : markKind? c = some kind)
    {tokens : List Token} {text rest : List Char} :
  Spells (.mark c h :: tokens) text rest
    ↔ ∃ text', skipSpace text = c :: text' ∧ Spells tokens text' rest
  := by
  constructor
  · rintro ⟨text', hskip, -, htokens⟩
    use text', hskip
  · rintro ⟨text', hskip, htokens⟩
    use text', hskip, Token.endsBefore_mark h text'

theorem spells_append {tokens tokens' : List Token} {text rest : List Char} :
  Spells (tokens ++ tokens') text rest ↔ ∃ mid, Spells tokens text mid ∧ Spells tokens' mid rest
  := by
  induction tokens generalizing text with
  | nil => simp [Spells]
  | cons token tokens ih =>
    simp only [List.cons_append, Spells, ih]
    constructor
    · rintro ⟨text', hskip, hends, mid, htokens, htokens'⟩
      use mid, ⟨text', hskip, hends, htokens⟩
    · rintro ⟨mid, ⟨text', hskip, hends, htokens⟩, htokens'⟩
      use text', hskip, hends, mid

@[simp]
theorem skipSpace_skipSpace (text : List Char) :
  skipSpace (skipSpace text) = skipSpace text
  := List.dropWhile_idempotent isSpace text

theorem length_skipSpace_le (text : List Char) :
  (skipSpace text).length ≤ text.length
  := List.length_dropWhile_le isSpace text

theorem skipSpace_cons_of_isSpace {c : Char} (h : isSpace c) (text : List Char) :
  skipSpace (c :: text) = skipSpace text
  := List.dropWhile_cons_of_pos h

theorem skipSpace_cons_of_not_isSpace {c : Char} (h : isSpace c = false) (text : List Char) :
  skipSpace (c :: text) = c :: text
  := by
  apply List.dropWhile_cons_of_neg
  simp [h]

/-- Spaces go on with no word, unless one comes after them. -/
theorem stops_of_skipSpace {text : List Char} (h : Stops (skipSpace text)) :
  Stops text
  := by
  cases text with
  | nil => exact stops_nil
  | cons c text =>
    by_cases hspace : isSpace c
    · exact stops_cons.mpr (isWordChar_eq_false_of_isSpace hspace)
    · rwa [skipSpace_cons_of_not_isSpace (by simpa using hspace)] at h

theorem stops_of_skipSpace_eq_nil {text : List Char} (h : skipSpace text = []) :
  Stops text
  := by
  apply stops_of_skipSpace
  rw [h]
  exact stops_nil

theorem stops_of_skipSpace_eq_cons {c : Char} {text rest : List Char}
    (h : skipSpace text = c :: rest) (hc : isWordChar c = false) :
  Stops text
  := by
  apply stops_of_skipSpace
  rw [h]
  exact stops_cons.mpr hc

theorem Token.length_pos (token : Token) :
  0 < token.chars.length
  := by
  obtain ⟨c, rest, heq, -⟩ := token.isToken.exists_eq_cons
  rw [heq]
  apply Nat.succ_pos

theorem Token.head?_append (token : Token) (text : List Char) :
  (token.chars ++ text).head? = token.chars.head?
  := by
  obtain ⟨c, rest, hchars, -⟩ := token.isToken.exists_eq_cons
  rw [hchars]
  rfl

theorem Token.skipSpace_append (token : Token) (text : List Char) :
  skipSpace (token.chars ++ text) = token.chars ++ text
  := by
  obtain ⟨c, rest, hchars, hspace⟩ := token.isToken.exists_eq_cons
  rw [hchars, List.cons_append, skipSpace_cons_of_not_isSpace hspace]

/-- The spaces before the first token do not matter. -/
theorem spells_skipSpace {tokens : List Token} (h : tokens ≠ []) {text rest : List Char} :
  Spells tokens (skipSpace text) rest ↔ Spells tokens text rest
  := by
  cases tokens with
  | nil => cases h rfl
  | cons token tokens => simp only [Spells, skipSpace_skipSpace]

theorem Spells.length_le {tokens : List Token} {text rest : List Char}
    (h : Spells tokens text rest) :
  rest.length ≤ text.length
  := by
  induction tokens generalizing text with
  | nil =>
    cases h
    apply Nat.le_refl
  | cons token tokens ih =>
    obtain ⟨text', hskip, -, h⟩ := h
    have hlength := length_skipSpace_le text
    rw [hskip, List.length_append] at hlength
    have hrest := ih h
    omega

theorem consistsOf_nil {text : List Char} :
  ConsistsOf text [] ↔ skipSpace text = []
  := by
  simp [ConsistsOf, Spells]

theorem consistsOf_cons {token : Token} {tokens : List Token} {text : List Char} :
  ConsistsOf text (token :: tokens)
    ↔ ∃ text', skipSpace text = token.chars ++ text' ∧ token.EndsBefore text'
        ∧ ConsistsOf text' tokens
  := by
  constructor
  · rintro ⟨rest, ⟨text', hskip, hends, htokens⟩, hrest⟩
    use text', hskip, hends, rest
  · rintro ⟨text', hskip, hends, rest, htokens, hrest⟩
    use rest, ⟨text', hskip, hends, htokens⟩

/-- Spaces in front do not matter. -/
theorem consistsOf_congr {tokens : List Token} {text text' : List Char}
    (h : skipSpace text = skipSpace text') :
  ConsistsOf text tokens ↔ ConsistsOf text' tokens
  := by
  cases tokens with
  | nil => rw [consistsOf_nil, consistsOf_nil, h]
  | cons token tokens => rw [consistsOf_cons, consistsOf_cons, h]

/-- The first token of a text is among those it consists of. -/
theorem ConsistsOf.exists_of_append {token : Token} {tokens : List Token} {text : List Char}
    (h : ConsistsOf (token.chars ++ text) tokens) (hends : token.EndsBefore text) :
  ∃ tokens', tokens = token :: tokens' ∧ ConsistsOf text tokens'
  := by
  cases tokens with
  | nil =>
    rw [consistsOf_nil, token.skipSpace_append] at h
    obtain ⟨c, rest, hchars, -⟩ := token.isToken.exists_eq_cons
    rw [hchars] at h
    cases h
  | cons token' tokens =>
    obtain ⟨text', hskip, hends', htokens⟩ := consistsOf_cons.mp h
    rw [token.skipSpace_append] at hskip
    obtain ⟨rfl, rfl⟩ := Token.eq_of_append hends hends' hskip
    use tokens

/-! ### The order of tokens -/

/-- What the tokens so far ask for. -/
inductive Stage where
  /-- An element has to follow. -/
  | due
  /-- A bracket was opened, and an element may follow. -/
  | opened
  /-- An element has ended. -/
  | done
  deriving DecidableEq, Repr

/-- Whether a token of a kind may follow. -/
def Stage.admits : Stage → Kind → Bool
  | .due, kind => kind = .opening || kind = .quoted || kind = .word
  | .opened, kind => kind ≠ .separator
  | .done, kind => kind = .closing || kind = .separator

/-- What a token of a kind leaves to ask for. -/
def Kind.after : Kind → Stage
  | .opening => .opened
  | .closing => .done
  | .separator => .due
  | .quoted => .done
  | .word => .done

/-- Each of these tokens may follow, from one stage on up to another. -/
def InOrder : (first : Stage) → (tokens : List Token) → (last : Stage) → Prop
  | first, [], last => first = last
  | first, token :: tokens, last =>
    first.admits token.kind = true ∧ InOrder token.kind.after tokens last

theorem InOrder.append {first mid last : Stage} {tokens tokens' : List Token}
    (h : InOrder first tokens mid) (h' : InOrder mid tokens' last) :
  InOrder first (tokens ++ tokens') last
  := by
  induction tokens generalizing first with
  | nil =>
    cases h
    exact h'
  | cons token tokens ih => exact ⟨h.1, ih h.2⟩

/-- Where an element has to follow, something follows. -/
theorem InOrder.ne_nil {tokens : List Token} (h : InOrder .due tokens .done) :
  tokens ≠ []
  := by
  rintro rfl
  cases h

/-- What may follow where an element has to may also follow an opening bracket. -/
theorem InOrder.opened {tokens : List Token} (h : InOrder .due tokens .done) :
  InOrder .opened tokens .done
  := by
  cases tokens with
  | nil => cases h
  | cons token tokens =>
    obtain ⟨hadmits, h⟩ := h
    refine ⟨?_, h⟩
    revert hadmits
    cases token.kind
    all_goals decide

/-- After an element no word follows. -/
theorem InOrder.stops {tokens : List Token} {text rest : List Char}
    (h : InOrder .done tokens .done) (htext : Spells tokens text rest) (hrest : Stops rest) :
  Stops text
  := by
  cases tokens with
  | nil =>
    cases htext
    exact hrest
  | cons token tokens =>
    obtain ⟨text', hskip, -, -⟩ := htext
    obtain ⟨kind, chars, htoken⟩ := token
    obtain ⟨hadmits, -⟩ := h
    cases htoken with
    | mark hmark => exact stops_of_skipSpace_eq_cons hskip (isWordChar_eq_false_of_markKind? hmark)
    | quoted => exact stops_of_skipSpace_eq_cons hskip rfl
    | word => cases hadmits

/-- Tokens in order may follow each other without spaces. -/
theorem InOrder.spells_flatMap {first : Stage} {tokens : List Token}
    (h : InOrder first tokens .done) :
  Spells tokens (tokens.flatMap Token.chars) []
  := by
  induction tokens generalizing first with
  | nil => rfl
  | cons token tokens ih =>
    obtain ⟨-, h⟩ := h
    use tokens.flatMap Token.chars, token.skipSpace_append _
    constructor
    · intro hword
      rw [hword] at h
      apply h.stops (ih h) stops_nil
    · apply ih h

end StatusBar.Document
