import StatusBar.Proofs.Relaxed.Marked

/-!
# Block comments that end

A text whose block comments all end starts with a space, with a whole comment or with a
character outside of comments.
-/

namespace StatusBar.Relaxed

open Document (Token)
open Scan (isSpace)

/-- No block comment is left open: the end of a line that is added is in no comment. -/
def BlocksClosed (text : List Char) : Prop :=
  (marked .code (text ++ ['\n'])).getLast? = some ('\n', false)

/-- Only what comes after what is over matters. -/
theorem blocksClosed_congr (part : List (Char × Bool)) {text rest : List Char}
    (h : marked .code (text ++ ['\n']) = part ++ marked .code (rest ++ ['\n'])) :
  BlocksClosed text ↔ BlocksClosed rest
  := by
  have hne := marked_ne_nil .code (List.append_ne_nil_of_right_ne_nil rest
    (List.cons_ne_nil '\n' []))
  rw [BlocksClosed, BlocksClosed, h, List.getLast?_append_of_ne_nil _ hne]

theorem blocksClosed_token (token : Token) (text : List Char) :
  BlocksClosed (token.chars ++ text) ↔ BlocksClosed text
  := by
  apply blocksClosed_congr (mark false token.chars)
  rw [List.append_assoc, marked_token]

theorem blocksClosed_space {c : Char} (hc : isSpace c = true) (text : List Char) :
  BlocksClosed (c :: text) ↔ BlocksClosed text
  := by
  apply blocksClosed_congr (mark false [c])
  apply marked_plain (isGap_singleton hc).isPlain

theorem blocksClosed_block {body : List Char} (h : ¬ ['*', '/'] <:+: body) (text : List Char) :
  BlocksClosed ('/' :: '*' :: (body ++ '*' :: '/' :: text)) ↔ BlocksClosed text
  := by
  apply blocksClosed_congr (mark true ('/' :: '*' :: (body ++ ['*', '/'])))
  rw [← marked_block h]
  simp

theorem blocksClosed_line {body : List Char} (h : '\n' ∉ body) (text : List Char) :
  BlocksClosed ('/' :: '/' :: (body ++ '\n' :: text)) ↔ BlocksClosed ('\n' :: text)
  := by
  apply blocksClosed_congr (mark true ('/' :: '/' :: body))
  have hmarked := marked_line h (text ++ ['\n'])
  simpa using hmarked

theorem blocksClosed_lastLine {body : List Char} (h : '\n' ∉ body) :
  BlocksClosed ('/' :: '/' :: body)
  := by
  rw [BlocksClosed]
  have hmarked := marked_line h []
  rw [List.cons_append, List.cons_append, hmarked]
  simp [marked]

/-- The first end of a block comment. -/
theorem exists_endOfBlock {text : List Char} (h : ['*', '/'] <:+: text) :
  ∃ body rest, text = body ++ '*' :: '/' :: rest ∧ ¬ ['*', '/'] <:+: body
  := by
  induction text with
  | nil => cases List.eq_nil_of_infix_nil h
  | cons c text ih =>
    by_cases hprefix : ['*', '/'] <+: c :: text
    · obtain ⟨rest, heq⟩ := hprefix
      use [], rest, heq.symm
      simp
    · obtain hfirst | htext := List.infix_cons_iff.mp h
      · cases hprefix hfirst
      · obtain ⟨body, rest, rfl, hbody⟩ := ih htext
        use c :: body, rest, rfl
        intro hends
        obtain hfirst | hrest := List.infix_cons_iff.mp hends
        · apply hprefix
          apply hfirst.trans
          apply List.prefix_append
        · apply hbody hrest

/-- A block comment without an end is open. -/
theorem not_blocksClosed {body : List Char} (h : ¬ ['*', '/'] <:+: body) :
  ¬ BlocksClosed ('/' :: '*' :: body)
  := by
  intro hclosed
  obtain ⟨afterStar, heq⟩ := @marked_blockComment body false h (by simp) ['\n']
  rw [BlocksClosed, List.cons_append, List.cons_append, marked, heq, ← List.cons_append,
    ← List.cons_append, List.getLast?_append_of_ne_nil _ (marked_ne_nil _ (by simp))] at hclosed
  cases afterStar
  all_goals cases hclosed

/-- What a text starts with whose block comments end. -/
inductive Start : List Char → Prop where
  | finish : Start []
  | space {c : Char} (hc : isSpace c = true) (text : List Char) : Start (c :: text)
  | lastLine {body : List Char} (hbody : '\n' ∉ body) : Start ('/' :: '/' :: body)
  | line {body : List Char} (hbody : '\n' ∉ body) (text : List Char) :
      Start ('/' :: '/' :: (body ++ '\n' :: text))
  | block {body : List Char} (hbody : ¬ ['*', '/'] <:+: body) (text : List Char) :
      Start ('/' :: '*' :: (body ++ '*' :: '/' :: text))
  /-- No comment starts here. -/
  | code {c : Char} {text : List Char} (hc : isSpace c = false)
      (h : c = '/' → text.head? ≠ some '/' ∧ text.head? ≠ some '*') : Start (c :: text)

theorem start_of_blocksClosed {text : List Char} (h : BlocksClosed text) :
  Start text
  := by
  cases text with
  | nil => exact .finish
  | cons c text =>
    by_cases hspace : isSpace c = true
    · exact .space hspace text
    by_cases hline : c = '/' ∧ text.head? = some '/'
    · obtain ⟨rfl, hhead⟩ := hline
      obtain ⟨body, rfl⟩ := List.head?_eq_some_iff.mp hhead
      by_cases hend : '\n' ∈ body
      · obtain ⟨body, rest, rfl, hbody⟩ := List.eq_append_cons_of_mem hend
        exact .line hbody rest
      · exact .lastLine hend
    by_cases hblock : c = '/' ∧ text.head? = some '*'
    · obtain ⟨rfl, hhead⟩ := hblock
      obtain ⟨body, rfl⟩ := List.head?_eq_some_iff.mp hhead
      by_cases hend : ['*', '/'] <:+: body
      · obtain ⟨body, rest, rfl, hbody⟩ := exists_endOfBlock hend
        exact .block hbody rest
      · cases not_blocksClosed hend h
    apply Start.code (by simpa using hspace)
    intro hc
    use fun hhead => hline ⟨hc, hhead⟩
    exact fun hhead => hblock ⟨hc, hhead⟩

end StatusBar.Relaxed
