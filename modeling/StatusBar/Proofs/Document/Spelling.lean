import StatusBar.Proofs.Document.Extent

/-!
# Reading goes by tokens

What a text holds depends on its tokens alone: any text of the same tokens, with whatever
spaces around them, holds the same document.  The tokens of a text that holds a document
follow each other in order.
-/

namespace StatusBar

open Document (Token Stage Stops InOrder Spells spells_mark spells_append spells_skipSpace)
open Scan (skipSpace)

namespace Reading

variable {α β : Type}

/-- What is read consists of tokens, which follow each other in order from a stage on, and
the same is read of all texts that start with these tokens. -/
def TakesTokens (first : Stage) (f : List Char → Except Failure (Parsed α))
    (text : List Char) (value : α) (rest : List Char) : Prop :=
  ∃ tokens, Spells tokens text rest ∧ InOrder first tokens .done
    ∧ ∀ text' rest', Spells tokens text' rest' → f text' = .ok (value, rest')

/-- Whatever is read consists of tokens. -/
def ByTokens (first : Stage) (f : List Char → Except Failure (Parsed α)) : Prop :=
  ∀ text value rest, f text = .ok (value, rest) → Stops rest →
    TakesTokens first f text value rest

/-- Read on after the quote that a text starts with. -/
def afterQuote (f : List Char → Except Failure (Parsed α)) (text : List Char) :
    Except Failure (Parsed α) :=
  match skipSpace text with
  | '"' :: rest => f rest
  | rest => failAt .keyNotString rest

theorem afterQuote_eq_ok {f : List Char → Except Failure (Parsed α)} {text rest : List Char}
    {value : α} :
  afterQuote f text = .ok (value, rest)
    ↔ ∃ text', skipSpace text = '"' :: text' ∧ f text' = .ok (value, rest)
  := by
  unfold afterQuote
  constructor
  · intro h
    split at h
    case h_1 text' hskip => use text'
    case h_2 => cases h
  · rintro ⟨text', hskip, h⟩
    rw [hskip]
    exact h

/-- A string or a word is read. -/
theorem takesTokens_singleton {f : List Char → Except Failure (Parsed α)} (token : Token)
    {text rest : List Char} {value : α} (hkind : token.kind = .quoted ∨ token.kind = .word)
    (hskip : skipSpace text = token.chars ++ rest) (hends : token.EndsBefore rest)
    (hf : ∀ text' rest', skipSpace text' = token.chars ++ rest' → token.EndsBefore rest' →
      f text' = .ok (value, rest')) :
  TakesTokens .due f text value rest
  := by
  use [token], ⟨rest, hskip, hends, rfl⟩
  constructor
  · obtain hkind | hkind := hkind
    all_goals
      rw [InOrder, hkind]
      use rfl
      rfl
  · rintro text' rest' ⟨_, hskip', hends', rfl⟩
    apply hf text' _ hskip' hends'

/-- What is spelled where an element has to follow does not start with a closing bracket. -/
theorem skipSpace_of_due {tokens : List Token} {text rest : List Char}
    (hspells : Spells tokens text rest) (horder : InOrder .due tokens .done) :
  ∃ c text', skipSpace text = c :: text' ∧ c ≠ ']' ∧ c ≠ '\x7d'
  := by
  cases tokens with
  | nil => cases horder
  | cons token tokens =>
    obtain ⟨text', hskip, -, -⟩ := hspells
    obtain ⟨hadmits, -⟩ := horder
    obtain ⟨kind, chars, htoken⟩ := token
    obtain ⟨c, chars, rfl, -⟩ := htoken.exists_eq_cons
    use c, chars ++ text', hskip
    have hkind := htoken.firstKind_eq
    constructor
    · rintro rfl
      subst hkind
      cases hadmits
    · rintro rfl
      subst hkind
      cases hadmits

/-- An element is read, and then more tokens follow. -/
theorem ByTokens.andThen {f : List Char → Except Failure (Parsed α)} (hf : ByTokens .due f)
    {text left rest : List Char} {value : α} (hvalue : f (skipSpace text) = .ok (value, left))
    {tokens' : List Token} (hspells' : Spells tokens' left rest)
    (horder' : InOrder .done tokens' .done) (hrest : Stops rest) :
  ∃ tokens, Spells tokens text rest ∧ InOrder .due tokens .done
    ∧ ∀ text₁ rest₁, Spells tokens text₁ rest₁ →
        ∃ left₁, f (skipSpace text₁) = .ok (value, left₁) ∧ Spells tokens' left₁ rest₁
          ∧ left₁.length ≤ text₁.length
          ∧ ∃ c text', skipSpace text₁ = c :: text' ∧ c ≠ ']' ∧ c ≠ '\x7d'
  := by
  obtain ⟨tokens, hspells, horder, hread⟩ :=
    hf _ value left hvalue (horder'.stops hspells' hrest)
  use tokens ++ tokens'
  constructor
  · apply spells_append.mpr
    use left, (spells_skipSpace horder.ne_nil).mp hspells
  use horder.append horder'
  intro text₁ rest₁ hspells₁
  obtain ⟨left₁, hspells₁, hspells₂⟩ := spells_append.mp hspells₁
  use left₁, hread _ left₁ ((spells_skipSpace horder.ne_nil).mpr hspells₁), hspells₂,
    hspells₁.length_le
  apply skipSpace_of_due hspells₁ horder

/-- A closing bracket is read, and nothing follows. -/
theorem spells_closing {c : Char} (h : Document.markKind? c = some .closing)
    {text rest : List Char} (hskip : skipSpace text = c :: rest) :
  ∃ tokens, Spells tokens text rest
    ∧ (∀ stage : Stage, stage.admits .closing = true → InOrder stage tokens .done)
    ∧ ∀ text₁ rest₁, Spells tokens text₁ rest₁ → skipSpace text₁ = c :: rest₁
  := by
  use [.mark c h]
  constructor
  · apply (spells_mark h).mpr
    use rest, hskip
    rfl
  constructor
  · intro stage hadmits
    use hadmits
    rfl
  · intro text₁ rest₁ hspells₁
    obtain ⟨_, hskip₁, rfl⟩ := (spells_mark h).mp hspells₁
    exact hskip₁

/-! ### Arrays -/

section Items

variable {item : List Char → Except Failure (Parsed α)} {text left : List Char}

theorem itemsWithin_of_comma (hskip : skipSpace text = ',' :: left)
    (hnext : ∃ c text', skipSpace left = c :: text' ∧ c ≠ ']' ∧ c ≠ '\x7d') (bound : Nat) :
  itemsWithin item (bound + 1) text = (do
    let (first, rest) ← item (skipSpace left)
    let (more, rest) ← itemsWithin item bound rest
    return (first :: more, rest))
  := by
  obtain ⟨c, text', hnext, hclosing, -⟩ := hnext
  rw [itemsWithin.eq_def]
  simp only [hskip, hnext]
  split
  case h_1 heq => cases heq
  case h_2 heq =>
    injection heq with hc
    cases hclosing hc
  case h_3 => rfl

theorem items_of_item
    (hnext : ∃ c text', skipSpace text = c :: text' ∧ c ≠ ']' ∧ c ≠ '\x7d') :
  items item text = (do
    let (first, rest) ← item (skipSpace text)
    let (more, rest) ← itemsWithin item (rest.length + 1) rest
    return (first :: more, rest))
  := by
  obtain ⟨c, text', hnext, hclosing, -⟩ := hnext
  rw [items.eq_def]
  simp only [hnext]
  split
  case h_1 heq => cases heq
  case h_2 heq =>
    injection heq with hc
    cases hclosing hc
  case h_3 => rfl

theorem itemsWithin_eq_ok (hitem : ByTokens .due item) {bound : Nat} {rest : List Char}
    {values : List α} (h : itemsWithin item bound text = .ok (values, rest))
    (hrest : Stops rest) :
  ∃ tokens, Spells tokens text rest ∧ InOrder .done tokens .done
    ∧ ∀ text₁ rest₁, Spells tokens text₁ rest₁ → ∀ bound₁, text₁.length < bound₁ →
        itemsWithin item bound₁ text₁ = .ok (values, rest₁)
  := by
  induction bound generalizing text values with
  | zero => cases h
  | succ bound ih =>
    unfold itemsWithin at h
    split at h
    case h_1 => cases h
    case h_2 hskip =>
      cases h
      obtain ⟨tokens, hspells, horder, hall⟩ := spells_closing rfl hskip
      use tokens, hspells, horder .done rfl
      intro text₁ rest₁ hspells₁ bound₁ hbound
      obtain ⟨bound₁, rfl⟩ := Nat.exists_eq_add_of_lt hbound
      simp only [itemsWithin, hall text₁ rest₁ hspells₁]
    case h_3 left hskip =>
      split at h
      case h_1 => cases h
      case h_2 => cases h
      case h_3 =>
        obtain ⟨⟨first, left'⟩, hfirst, hnext⟩ := bind_eq_ok.mp h
        obtain ⟨⟨more, left''⟩, hmore, hnext⟩ := bind_eq_ok.mp hnext
        cases hnext
        obtain ⟨tokens', hspells', horder', hread'⟩ := ih hmore
        obtain ⟨tokens, hspells, horder, hread⟩ := hitem.andThen hfirst hspells' horder' hrest
        use .mark ',' rfl :: tokens
        constructor
        · apply (spells_mark _).mpr
          use left
        use ⟨rfl, horder⟩
        intro text₁ rest₁ hspells₁ bound₁ hbound
        obtain ⟨left₁, hskip₁, hspells₁⟩ := (spells_mark _).mp hspells₁
        obtain ⟨left₂, hfirst₁, hspells₂, hlength₂, hnext₁⟩ := hread left₁ rest₁ hspells₁
        have hlength₁ := Document.length_skipSpace_le text₁
        rw [hskip₁, List.length_cons] at hlength₁
        obtain ⟨bound₁, rfl⟩ := Nat.exists_eq_add_of_lt hbound
        rw [itemsWithin_of_comma hskip₁ hnext₁]
        apply bind_eq_ok.mpr
        use (first, left₂), hfirst₁
        apply bind_eq_ok.mpr
        use (more, rest₁), hread' left₂ rest₁ hspells₂ _ (by omega)
        rfl
    case h_4 => cases h

/-- An array goes by tokens if its items do. -/
theorem byTokens_items (hitem : ByTokens .due item) :
  ByTokens .opened (items item)
  := by
  intro text values rest h hrest
  unfold items at h
  split at h
  case h_1 => cases h
  case h_2 hskip =>
    cases h
    obtain ⟨tokens, hspells, horder, hall⟩ := spells_closing rfl hskip
    use tokens, hspells, horder .opened rfl
    intro text₁ rest₁ hspells₁
    simp only [items, hall text₁ rest₁ hspells₁]
  case h_3 =>
    obtain ⟨⟨first, left⟩, hfirst, hnext⟩ := bind_eq_ok.mp h
    obtain ⟨⟨more, left'⟩, hmore, hnext⟩ := bind_eq_ok.mp hnext
    cases hnext
    obtain ⟨tokens', hspells', horder', hread'⟩ := itemsWithin_eq_ok hitem hmore hrest
    obtain ⟨tokens, hspells, horder, hread⟩ := hitem.andThen hfirst hspells' horder' hrest
    use tokens, hspells, horder.opened
    intro text₁ rest₁ hspells₁
    obtain ⟨left₁, hfirst₁, hspells₂, -, hnext₁⟩ := hread text₁ rest₁ hspells₁
    rw [items_of_item hnext₁]
    apply bind_eq_ok.mpr
    use (first, left₁), hfirst₁
    apply bind_eq_ok.mpr
    use (more, rest₁), hread' left₁ rest₁ hspells₂ _ (by simp)
    rfl

end Items

/-! ### Objects -/

section Members

variable {entry : α → List Char → Except Failure (Parsed α)} {text left : List Char}

theorem membersWithin_eq_ok (hentry : ∀ state, ByTokens .due (afterQuote (entry state)))
    {bound : Nat} {rest : List Char} {state result : α}
    (h : membersWithin entry bound state text = .ok (result, rest)) (hrest : Stops rest) :
  ∃ tokens, Spells tokens text rest ∧ InOrder .done tokens .done
    ∧ ∀ text₁ rest₁, Spells tokens text₁ rest₁ → ∀ bound₁, text₁.length < bound₁ →
        membersWithin entry bound₁ state text₁ = .ok (result, rest₁)
  := by
  induction bound generalizing text state with
  | zero => cases h
  | succ bound ih =>
    unfold membersWithin at h
    split at h
    case h_1 => cases h
    case h_2 hskip =>
      cases h
      obtain ⟨tokens, hspells, horder, hall⟩ := spells_closing rfl hskip
      use tokens, hspells, horder .done rfl
      intro text₁ rest₁ hspells₁ bound₁ hbound
      obtain ⟨bound₁, rfl⟩ := Nat.exists_eq_add_of_lt hbound
      simp only [membersWithin, hall text₁ rest₁ hspells₁]
    case h_3 left hskip =>
      split at h
      case h_1 => cases h
      case h_2 => cases h
      case h_3 left' hskip' =>
        obtain ⟨⟨state', left''⟩, hfirst, hnext⟩ := bind_eq_ok.mp h
        obtain ⟨tokens', hspells', horder', hread'⟩ := ih hnext
        have hfirst' : afterQuote (entry state) (skipSpace left) = .ok (state', left'') := by
          apply afterQuote_eq_ok.mpr
          use left', by rw [Document.skipSpace_skipSpace, hskip']
        obtain ⟨tokens, hspells, horder, hread⟩ :=
          (hentry state).andThen hfirst' hspells' horder' hrest
        use .mark ',' rfl :: tokens
        constructor
        · apply (spells_mark _).mpr
          use left
        use ⟨rfl, horder⟩
        intro text₁ rest₁ hspells₁ bound₁ hbound
        obtain ⟨left₁, hskip₁, hspells₁⟩ := (spells_mark _).mp hspells₁
        obtain ⟨left₂, hfirst₁, hspells₂, hlength₂, -⟩ := hread left₁ rest₁ hspells₁
        obtain ⟨left₃, hquote, hfirst₁⟩ := afterQuote_eq_ok.mp hfirst₁
        have hlength₁ := Document.length_skipSpace_le text₁
        rw [hskip₁, List.length_cons] at hlength₁
        rw [Document.skipSpace_skipSpace] at hquote
        obtain ⟨bound₁, rfl⟩ := Nat.exists_eq_add_of_lt hbound
        simp only [membersWithin, hskip₁, hquote]
        apply bind_eq_ok.mpr
        use (state', left₂), hfirst₁
        apply hread' left₂ rest₁ hspells₂ _ (by omega)
      case h_4 => cases h
    case h_4 => cases h

/-- An object goes by tokens if its members do. -/
theorem byTokens_members (hentry : ∀ state, ByTokens .due (afterQuote (entry state))) (state : α) :
  ByTokens .opened (members entry state)
  := by
  intro text result rest h hrest
  unfold members at h
  split at h
  case h_1 => cases h
  case h_2 hskip =>
    cases h
    obtain ⟨tokens, hspells, horder, hall⟩ := spells_closing rfl hskip
    use tokens, hspells, horder .opened rfl
    intro text₁ rest₁ hspells₁
    simp only [members, hall text₁ rest₁ hspells₁]
  case h_3 left hskip =>
    obtain ⟨⟨state', left'⟩, hfirst, hnext⟩ := bind_eq_ok.mp h
    obtain ⟨tokens', hspells', horder', hread'⟩ := membersWithin_eq_ok hentry hnext hrest
    have hfirst' : afterQuote (entry state) (skipSpace text) = .ok (state', left') := by
      apply afterQuote_eq_ok.mpr
      use left, by rw [Document.skipSpace_skipSpace, hskip]
    obtain ⟨tokens, hspells, horder, hread⟩ :=
      (hentry state).andThen hfirst' hspells' horder' hrest
    use tokens, hspells, horder.opened
    intro text₁ rest₁ hspells₁
    obtain ⟨left₁, hfirst₁, hspells₂, -, -⟩ := hread text₁ rest₁ hspells₁
    obtain ⟨left₂, hquote, hfirst₁⟩ := afterQuote_eq_ok.mp hfirst₁
    rw [Document.skipSpace_skipSpace] at hquote
    simp only [members, hquote]
    apply bind_eq_ok.mpr
    use (state', left₁), hfirst₁
    apply hread' left₁ rest₁ hspells₂ _ (by simp)
  case h_4 => cases h

end Members

end Reading

open Reading (ByTokens afterQuote afterQuote_eq_ok bind_eq_ok)

/-- A member goes by tokens if its value does. -/
theorem Members.byTokens_read {value : List Char → Except Failure (Parsed Document)}
    (hvalue : ByTokens .due value) (members : Members) :
  ByTokens .due (afterQuote (Members.read value members))
  := by
  intro text result rest h hrest
  obtain ⟨left, hskip, h⟩ := afterQuote_eq_ok.mp h
  obtain ⟨⟨name, left₁⟩, hname, hnext⟩ := bind_eq_ok.mp h
  obtain ⟨left₂, hcolon, hnext⟩ := bind_eq_ok.mp hnext
  obtain ⟨⟨doc, left₃⟩, hdoc, hnext⟩ := bind_eq_ok.mp hnext
  cases hnext
  obtain ⟨_, rfl, ⟨body, rfl, hbody⟩, hstring⟩ := Scan.takes_string left name left₁ hname
  obtain ⟨tokens, hspells, horder, hread⟩ := hvalue left₂ doc rest hdoc hrest
  have hcolon' : skipSpace left₁ = ':' :: left₂ := by
    unfold Reading.colon at hcolon
    split at hcolon
    case h_1 => cases hcolon
    case h_2 hskip =>
      cases hcolon
      exact hskip
    case h_3 => cases hcolon
  use ⟨.quoted, _, .quoted hbody⟩ :: .mark ':' rfl :: tokens
  constructor
  · use left₁, hskip, by simp [Token.EndsBefore]
    apply (spells_mark _).mpr
    use left₂
  use ⟨rfl, rfl, horder⟩
  rintro text₁ rest₁ ⟨left₁', hskip', -, hspells'⟩
  obtain ⟨left₂', hcolon', hspells'⟩ := (spells_mark _).mp hspells'
  apply afterQuote_eq_ok.mpr
  use body ++ ['"'] ++ left₁', hskip'
  apply bind_eq_ok.mpr
  use (name, left₁'), hstring left₁'
  apply bind_eq_ok.mpr
  use left₂', by simp only [Reading.colon, hcolon']
  apply bind_eq_ok.mpr
  use (doc, rest₁), hread left₂' rest₁ hspells'
  rfl

namespace Document

/-- A value that starts with a character of a word goes by the word. -/
theorem byTokens_word {depth : Nat} {c : Char} {text left rest : List Char} {doc : Document}
    {f : List Char → Except Failure (Parsed Document)} (hc : isWordChar c = true)
    (hskip : skipSpace text = c :: left)
    (hf : Reading.TakesWord f left doc rest) (hrest : Stops rest)
    (hvalue : ∀ text' left', skipSpace text' = c :: left' → value depth text' = f left') :
  Reading.TakesTokens .due (value depth) text doc rest
  := by
  obtain ⟨word, rfl, hword, hread⟩ := hf
  have hchars : ∀ d ∈ c :: word, isWordChar d = true := by
    intro d hd
    obtain rfl | hd := List.mem_cons.mp hd
    · exact hc
    · exact hword d hd
  apply Reading.takesTokens_singleton ⟨.word, c :: word, .word hchars⟩ (.inr rfl)
    hskip fun _ => hrest
  intro text' rest' hskip' hends'
  rw [hvalue text' _ hskip']
  apply hread rest' (hends' rfl)

theorem value_of_digit {c : Char} (hc : (Numeral.digit? c).isSome = true) {text left : List Char}
    (hskip : skipSpace text = c :: left) (depth : Nat) :
  value depth text = (do
    let (n, rest) ← Numeral.read false (c :: left)
    return (.number n, rest))
  := by
  rw [value.eq_def, hskip]
  split
  case h_1 heq => cases heq
  case h_9 => rw [Numeral.startsWithDigit, if_pos hc]
  all_goals
    injection ‹_ = _› with hc'
    subst hc'
    cases hc

/-- A numeral that starts with a digit is a word. -/
theorem takesWord_of_digit {c : Char} {d : Nat} (hc : Numeral.digit? c = some d)
    {left rest : List Char} {doc : Document}
    (h : (do let (n, rest) ← Numeral.read false (c :: left); return (.number n, rest))
      = (.ok (doc, rest) : Except Failure (Parsed Document))) (hrest : Stops rest) :
  Reading.TakesWord (fun left => (do
    let (n, rest) ← Numeral.read false (c :: left)
    return (Document.number n, rest))) left doc rest
  := by
  obtain ⟨word, hleft, hword, hread⟩ := Reading.Settled.takesWord
    (fun word => (Numeral.settled_read false word).map Document.number) h hrest
  cases word with
  | nil =>
    rw [List.nil_append] at hleft
    rw [← hleft, stops_cons, Numeral.isWordChar_of_digit? hc] at hrest
    cases hrest
  | cons c' word =>
    injection hleft with hc hleft
    subst hc
    use word, hleft, fun d hd => hword d (List.mem_cons_of_mem _ hd), hread

/-- A bracket goes by tokens if what stands in it does. -/
theorem byTokens_bracket {α : Type} {depth : Nat} {c : Char}
    (hc : markKind? c = some .opening) {wrap : α → Document}
    {inside : List Char → Except Failure (Parsed α)} (hinside : ByTokens .opened inside)
    {text left rest : List Char} {doc : Document} (hskip : skipSpace text = c :: left)
    (h : (do let (content, rest) ← inside left; return (wrap content, rest))
      = (.ok (doc, rest) : Except Failure (Parsed Document))) (hrest : Stops rest)
    (hvalue : ∀ text' left', skipSpace text' = c :: left' → value depth text' = (do
      let (content, rest) ← inside left'
      return (wrap content, rest))) :
  Reading.TakesTokens .due (value depth) text doc rest
  := by
  obtain ⟨⟨content, left'⟩, hcontent, hnext⟩ := bind_eq_ok.mp h
  cases hnext
  obtain ⟨tokens, hspells, horder, hread⟩ := hinside left content rest hcontent hrest
  use .mark c hc :: tokens
  constructor
  · apply (spells_mark hc).mpr
    use left
  use ⟨rfl, horder⟩
  intro text' rest' hspells'
  obtain ⟨left', hskip', hspells'⟩ := (spells_mark hc).mp hspells'
  rw [hvalue text' left' hskip']
  apply bind_eq_ok.mpr
  use (content, rest'), hread left' rest' hspells'
  rfl

/-- A value goes by tokens if the values within its brackets do. -/
theorem byTokens_value_step (depth : Nat) (ih : ∀ d, depth = d + 1 → ByTokens .due (value d)) :
  ByTokens .due (value depth)
  := by
  intro text doc rest h hrest
  have hvalue := h
  rw [value.eq_def] at h
  split at h
  case h_1 => cases h
  case h_2 left hskip =>
    have hword := Reading.Settled.takesWord (Scan.settled_word _ (List.all_eq_true.mp rfl)) h hrest
    apply byTokens_word (c := 'n') rfl hskip hword hrest
    intro text' left' hskip'
    rw [value.eq_def, hskip']
    rfl
  case h_3 left hskip =>
    have hword := Reading.Settled.takesWord (Scan.settled_word _ (List.all_eq_true.mp rfl)) h hrest
    apply byTokens_word (c := 't') rfl hskip hword hrest
    intro text' left' hskip'
    rw [value.eq_def, hskip']
    rfl
  case h_4 left hskip =>
    have hword := Reading.Settled.takesWord (Scan.settled_word _ (List.all_eq_true.mp rfl)) h hrest
    apply byTokens_word (c := 'f') rfl hskip hword hrest
    intro text' left' hskip'
    rw [value.eq_def, hskip']
    rfl
  case h_5 left hskip =>
    obtain ⟨⟨chars, left'⟩, hstring, hnext⟩ := bind_eq_ok.mp h
    cases hnext
    obtain ⟨_, rfl, ⟨body, rfl, hbody⟩, hall⟩ := Scan.takes_string left chars rest hstring
    apply Reading.takesTokens_singleton ⟨.quoted, _, .quoted hbody⟩ (.inl rfl) hskip
      (by simp [Token.EndsBefore])
    intro text' rest' hskip' hends'
    rw [value.eq_def, hskip']
    apply bind_eq_ok.mpr
    use (chars, rest'), hall rest'
    rfl
  case h_6 left hskip =>
    have hword := Reading.Settled.takesWord
      (fun word => (Numeral.settled_read true word).map Document.number) h hrest
    apply byTokens_word (c := '-') rfl hskip hword hrest
    intro text' left' hskip'
    rw [value.eq_def, hskip']
    rfl
  case h_7 left hskip =>
    split at h
    case h_1 => cases h
    case h_2 depth =>
      apply byTokens_bracket (c := '[') rfl (Reading.byTokens_items (ih depth rfl)) hskip h hrest
      intro text' left' hskip'
      rw [value.eq_def, hskip']
      rfl
  case h_8 left hskip =>
    split at h
    case h_1 => cases h
    case h_2 depth =>
      apply byTokens_bracket (c := '\x7b') rfl
        (Reading.byTokens_members (Members.byTokens_read (ih depth rfl)) []) hskip h hrest
      intro text' left' hskip'
      rw [value.eq_def, hskip']
      rfl
  case h_9 hne _ _ _ _ _ _ _ =>
    split at h
    case isTrue hdigit =>
      obtain ⟨c, left, hskip⟩ := List.exists_cons_of_ne_nil hne
      rw [hskip, Numeral.startsWithDigit] at hdigit
      obtain ⟨d, hd⟩ := Option.isSome_iff_exists.mp hdigit
      rw [hskip] at h
      apply byTokens_word (Numeral.isWordChar_of_digit? hd) hskip
        (takesWord_of_digit hd h hrest) hrest
      intro text' left' hskip'
      apply value_of_digit hdigit hskip'
    case isFalse => cases h

theorem byTokens_value (depth : Nat) :
  ByTokens .due (value depth)
  := by
  induction depth with
  | zero =>
    apply byTokens_value_step
    intro d hd
    cases hd
  | succ depth ih =>
    apply byTokens_value_step
    intro d hd
    cases hd
    exact ih

/-- The text of a document consists of tokens in order, and any text of the same tokens holds
the same document. -/
theorem exists_tokens_of_readChars {text : List Char} {doc : Document}
    (h : readChars text = .ok doc) :
  ∃ tokens, ConsistsOf text tokens ∧ InOrder .due tokens .done
    ∧ ∀ text', ConsistsOf text' tokens → readChars text' = .ok doc
  := by
  obtain ⟨⟨doc', rest⟩, hvalue, hnext⟩ := bind_eq_ok.mp h
  dsimp only at hnext
  split at hnext
  case h_1 hskip =>
    cases hnext
    obtain ⟨tokens, hspells, horder, hread⟩ := byTokens_value depthLimit text doc rest hvalue
      (stops_of_skipSpace_eq_nil hskip)
    use tokens, ⟨rest, hspells, hskip⟩, horder
    rintro text' ⟨rest', hspells', hskip'⟩
    apply bind_eq_ok.mpr
    use (doc, rest'), hread text' rest' hspells'
    simp only [hskip']
    rfl
  case h_2 => cases hnext

end Document

end StatusBar
