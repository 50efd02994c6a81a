import LosslessSyntax.Proofs.LexemeRoundTrip
import LosslessSyntax.Proofs.Validity

/-!
# Reconstruction

A tree over the tokens of a lexer prints the text that the lexer read, and knows its length without
looking at it. The main statement is `source_of_lexed`. It rests on three facts: a token read from a
lexeme prints that lexeme (`Lexed.source_token`), the walk prints the tokens in the order of the tree
(`Node.source_eq`), and the kept lengths add up to those of the tokens (`Element.Sound.textLen_eq`).
-/

namespace LosslessSyntax

/-- What a lexer hands over for one token: its tag and text, and the texts on both sides of it. -/
structure Lexed where
  leading : String
  tag : Tag
  text : String
  trailing : String

namespace Lexed

/-- The token that is read from it. -/
def token (lexed : Lexed) : Except LexemeError Token :=
  Token.ofLexeme lexed.tag lexed.text (.parse lexed.leading) (.parse lexed.trailing)

/-- The text it was cut from. -/
def source (lexed : Lexed) : String := lexed.leading ++ lexed.text ++ lexed.trailing

/-- The tag and the text belong together, and a fixed tag does not come without its text. Only the
end of input has none. -/
def Accepted (lexed : Lexed) : Prop :=
  (∃ kind, TokenKind.ofLexeme lexed.tag lexed.text = .ok kind) ∧
    ∀ sort, lexed.tag = .fixed sort → sort ≠ .eof → lexed.text ≠ ""

theorem source_token {lexed : Lexed} (accepted : lexed.Accepted) {token : Token}
    (read : lexed.token = .ok token) : token.source = lexed.source := by
  obtain ⟨⟨kind, kindRead⟩, spelled⟩ := accepted
  have text : kind.text = lexed.text := by
    rcases TokenKind.text_of_ofLexeme kindRead with same | ⟨sort, tag, bare, spelling⟩
    · exact same
    · by_cases eof : sort = .eof
      · rw [spelling, bare, eof]; rfl
      · exact absurd bare (spelled sort tag eof)
  rw [Lexed.token, Token.ofLexeme, kindRead] at read
  cases read
  simp only [Token.source, Lexed.source, text, Trivia.source_parse]

end Lexed

/-- The tokens of an element, by recursion on its children. -/
def Element.tokens (element : Element) : List Token :=
  (element.flatten.filterMap leaf?).map (·.token)

/-- The tokens below a node that stand in the source. -/
def Node.presentTokens (n : Node) : List Token :=
  (Element.node n).tokens.filter fun token => !token.isMissing

namespace Element

theorem tokens_leaf (l : Leaf) : (Element.leaf l).tokens = [l.token] := rfl

theorem tokens_node (n : Node) : (Element.node n).tokens = n.elements.flatMap tokens := by
  simp only [tokens, flatten_eq (.node n), elements, List.filterMap_cons, leaf?, List.filterMap_flatMap,
    List.map_flatMap]
  rfl

theorem map_leaves (element : Element) : element.leaves.map (·.token) = element.tokens := by
  rw [leaves, preorder_eq, tokens]

theorem source_eq_join (element : Element) : element.source = String.join (element.tokens.map Token.source) := by
  rw [source, ← map_leaves, List.map_map]
  rfl

end Element

theorem join_present (tokens : List Token) :
    String.join (tokens.map Token.source) =
      String.join ((tokens.filter fun token => !token.isMissing).map Token.source) := by
  induction tokens with
  | nil => rfl
  | cons token rest ih =>
    by_cases missing : token.isMissing
    · simp [missing, ih, (Token.source_of_isMissing missing).1]
    · simp [missing, ih]

theorem Node.source_eq (n : Node) : n.source = String.join (n.presentTokens.map Token.source) := by
  rw [Node.source, Element.source_eq_join, presentTokens, join_present]

theorem utf8ByteSize_join (texts : List String) :
    (String.join texts).utf8ByteSize = (texts.map String.utf8ByteSize).sum := by
  induction texts with
  | nil => rfl
  | cons text rest ih =>
    rw [String.join_cons, String.utf8ByteSize_append, ih, List.map_cons, List.sum_cons]

theorem sum_textLen_flatMap {elements : List Element}
    (each : ∀ child ∈ elements, child.textLen = (child.tokens.map Token.textLen).sum) :
    (elements.map Element.textLen).sum = ((elements.flatMap Element.tokens).map Token.textLen).sum := by
  induction elements with
  | nil => rfl
  | cons first rest ih =>
    have others := ih fun child member => each child (List.mem_cons_of_mem _ member)
    rw [List.map_cons, List.sum_cons, List.flatMap_cons, List.map_append, List.sum_append,
      each first List.mem_cons_self, others]

/-- The kept length of a sound element is the length of its tokens. -/
theorem Element.Sound.textLen_eq {element : Element} (sound : element.Sound) :
    element.textLen = (element.tokens.map Token.textLen).sum := by
  induction element using Element.children_induction with
  | step element ih =>
    cases element with
    | leaf l => simp [tokens_leaf, textLen]
    | node n =>
      rw [textLen, sound.node.length, tokens_node]
      exact sum_textLen_flatMap fun child member => ih child member (sound.child member)

/-- The kept length of a sound element is the length of its source. -/
theorem Element.Sound.textLen_eq_utf8ByteSize {element : Element} (sound : element.Sound) :
    element.textLen = element.source.utf8ByteSize := by
  have bytes : Token.textLen = fun token => token.source.utf8ByteSize := funext Token.textLen_eq
  rw [source_eq_join, utf8ByteSize_join, List.map_map, sound.textLen_eq, bytes]
  rfl

theorem map_source_of_lexed {tokens : List Token} {lexed : List Lexed}
    (accepted : ∀ item ∈ lexed, item.Accepted) (read : tokens.map Except.ok = lexed.map Lexed.token) :
    tokens.map Token.source = lexed.map Lexed.source := by
  induction lexed generalizing tokens with
  | nil => simp_all
  | cons item rest ih =>
    cases tokens with
    | nil => cases read
    | cons token tokens =>
      obtain ⟨first, others⟩ := List.cons_eq_cons.mp read
      rw [List.map_cons, List.map_cons, Lexed.source_token (accepted item List.mem_cons_self) first.symm,
        ih (fun other member => accepted other (List.mem_cons_of_mem _ member)) others]

/-- A tree whose tokens, but for the missing ones, were read from a lexer's output prints what the
lexer read and keeps its length. Missing tokens have no part in either. -/
theorem source_of_lexed {n : Node} (reachable : n.Reachable) {lexed : List Lexed}
    (accepted : ∀ item ∈ lexed, item.Accepted)
    (read : n.presentTokens.map Except.ok = lexed.map Lexed.token) :
    n.source = String.join (lexed.map Lexed.source) ∧
      n.textLen = (String.join (lexed.map Lexed.source)).utf8ByteSize ∧
      ∀ l ∈ n.leaves, l.token.isMissing → l.token.source = "" ∧ l.token.textLen = 0 := by
  have source : n.source = String.join (lexed.map Lexed.source) := by
    rw [Node.source_eq, map_source_of_lexed accepted read]
  refine ⟨source, ?_, fun l _ missing => Token.source_of_isMissing missing⟩
  rw [← source]
  exact reachable.sound.textLen_eq_utf8ByteSize

/-- What a lexer hands over for the text `[ /**/T`. -/
def Sample.lexed : List Lexed :=
  [⟨"", .fixed .leftSquare, "[", " /**/"⟩, ⟨"", .free .identifier, "T", ""⟩]

theorem source_of_lexed_sample :
    Sample.root.Reachable ∧ (∀ item ∈ Sample.lexed, item.Accepted) ∧
      Sample.root.presentTokens.map Except.ok = Sample.lexed.map Lexed.token ∧
      Sample.root.source = "[ /**/T" ∧ Sample.root.textLen = 7 := by
  have accepted : ∀ item ∈ Sample.lexed, item.Accepted := by
    intro item member
    simp only [Sample.lexed, List.mem_cons, List.not_mem_nil, or_false] at member
    rcases member with rfl | rfl
    · exact ⟨⟨.fixed .leftSquare, rfl⟩, fun _ _ _ => by decide⟩
    · exact ⟨⟨.free .identifier "T", rfl⟩, fun _ tag => by cases tag⟩
  have read : Sample.root.presentTokens.map Except.ok = Sample.lexed.map Lexed.token := by
    have comment : Trivia.parse " /**/" = ⟨#[.run .space 1, .stretch .blockComment "/**/"]⟩ := by
      change Trivia.scan .empty [' ', '/', '*', '*', '/'] = _
      rw [Trivia.scan]
      change Trivia.scan ⟨#[.run .space 1]⟩ ['/', '*', '*', '/'] = _
      rw [Trivia.scan]
      change Trivia.scan ⟨#[.run .space 1, .stretch .blockComment "/**/"]⟩ [] = _
      rw [Trivia.scan]
    have none : Trivia.parse "" = .empty := by
      change Trivia.scan .empty [] = _
      rw [Trivia.scan]
    simp only [Sample.lexed, List.map_cons, List.map_nil, Lexed.token, comment, none]
    rfl
  obtain ⟨source, length, _⟩ := source_of_lexed Sample.root_reachable accepted read
  exact ⟨Sample.root_reachable, accepted, read, source, length⟩

end LosslessSyntax
