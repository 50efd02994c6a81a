import LosslessSyntax.Proofs.Interning
import LosslessSyntax.Proofs.KeywordLookup
import LosslessSyntax.Token.Flat

/-!
# Lexemes and kinds

Reading a lexeme and giving the lexeme of a kind undo each other, but for the text of fixed tags, which
may be left out. This is said of kinds that carry their text and of tags under their sorts (`TokenKind.ofLexeme`),
and then of the tables in which every tag and every kind stands by itself (`FlatKind.tryLift`): reading by the
tables is reading by the sorts, followed by interning the text that is left open (`tryLift_eq`). The main statement
is `lift_laws`. It holds in every interner that a run of calls leads to; where a shard is full there is no name for
a new text, and `not_lifts_numerals` says that no way to spread texts over the shards avoids that.
-/

namespace LosslessSyntax

namespace TokenKind

/-- The text may stand under the tag: any text under a free tag, the spelling of a keyword under the
keyword tag, and nothing or the spelling under a fixed tag. -/
def Readable (tag : Tag) (text : String) : Prop :=
  tag.isFree ∨ (tag = .keyword ∧ ∃ word : Keyword, word.spelling = text) ∨
    (tag.isFixed ∧ (text = "" ∨ tag.spelling? = some text))

/-- Why a text may not stand under a tag that leaves it no choice. -/
def refusal (tag : Tag) (text : String) : LexemeError :=
  if tag = .keyword then .unknownKeyword text else .misspelling tag text

section Sorts

variable {text : String}

theorem readable_free (sort : FreeTag) : Readable (.free sort) text := .inl rfl

theorem readable_keyword_iff : Readable .keyword text ↔ ∃ word : Keyword, word.spelling = text := by
  constructor
  · rintro (free | ⟨_, spelled⟩ | ⟨fixed, _⟩)
    · cases free
    · exact spelled
    · cases fixed
  · intro spelled
    exact .inr (.inl ⟨rfl, spelled⟩)

theorem readable_fixed_iff {sort : FixedTag} :
    Readable (.fixed sort) text ↔ text = "" ∨ text = sort.spelling := by
  have spelling : (Tag.fixed sort).spelling? = some text ↔ text = sort.spelling := by
    rw [Tag.spelling?, Option.some.injEq, eq_comm]
  constructor
  · rintro (free | ⟨keyword, _⟩ | ⟨_, given⟩)
    · cases free
    · cases keyword
    · rwa [spelling] at given
  · intro given
    refine .inr (.inr ⟨rfl, ?_⟩)
    rwa [spelling]

theorem ofLexeme_keyword {word : Keyword} (spelled : word.spelling = text) :
    ofLexeme .keyword text = .ok (.keyword word) :=
  Keyword.ofLexeme_keyword_iff.mpr ⟨word, spelled, rfl⟩

theorem ofLexeme_fixed {sort : FixedTag} (given : text = "" ∨ text = sort.spelling) :
    ofLexeme (.fixed sort) text = .ok (.fixed sort) :=
  if_pos given

end Sorts

/-- A readable lexeme gives a kind with its tag, which takes over the text where the tag leaves one open. -/
theorem exists_ofLexeme_of_readable {tag : Tag} {text : String} (readable : Readable tag text) :
    ∃ kind, ofLexeme tag text = .ok kind ∧ kind.tag = tag ∧
      kind.lexeme = (tag, if tag.isFixed then none else some text) ∧
      kind.text = if tag.isFixed ∧ text = "" then tag.spelling?.getD "" else text := by
  cases tag with
  | free sort => exact ⟨.free sort text, rfl, rfl, rfl, rfl⟩
  | keyword =>
    obtain ⟨word, spelled⟩ := readable_keyword_iff.mp readable
    exact ⟨.keyword word, ofLexeme_keyword spelled, rfl, by simp [lexeme, spelled, Tag.isFixed, Tag.spelling?],
      by simp [TokenKind.text, spelled, Tag.isFixed, Tag.spelling?]⟩
  | fixed sort =>
    have given := readable_fixed_iff.mp readable
    refine ⟨.fixed sort, ofLexeme_fixed given, rfl, rfl, ?_⟩
    by_cases bare : text = ""
    · simp [TokenKind.text, bare, Tag.isFixed, Tag.spelling?]
    · rw [if_neg fun both => bare both.2]
      exact (given.resolve_left bare).symm

theorem ofLexeme_of_not_readable {tag : Tag} {text : String} (unreadable : ¬ Readable tag text) :
    ofLexeme tag text = .error (refusal tag text) := by
  cases tag with
  | free sort => exact absurd (readable_free sort) unreadable
  | keyword =>
    rw [readable_keyword_iff] at unreadable
    unfold ofLexeme
    rw [Keyword.ofSpelling?_eq_none_iff.mpr unreadable, refusal, if_pos rfl]
  | fixed sort =>
    rw [readable_fixed_iff] at unreadable
    exact if_neg unreadable

theorem exists_ofLexeme_iff {tag : Tag} {text : String} :
    (∃ kind, ofLexeme tag text = .ok kind) ↔ Readable tag text := by
  constructor
  · rintro ⟨kind, read⟩
    by_cases readable : Readable tag text
    · exact readable
    · cases (ofLexeme_of_not_readable readable).symm.trans read
  · intro readable
    obtain ⟨kind, read, _⟩ := exists_ofLexeme_of_readable readable
    exact ⟨kind, read⟩

/-- The kind read from a lexeme is spelled as the lexeme, unless that is a bare fixed tag. -/
theorem text_of_ofLexeme {tag : Tag} {text : String} {kind : TokenKind}
    (read : ofLexeme tag text = .ok kind) :
    kind.text = text ∨ ∃ sort : FixedTag, tag = .fixed sort ∧ text = "" ∧ kind.text = sort.spelling := by
  cases tag with
  | fixed sort =>
    by_cases accepted : text = "" ∨ text = sort.spelling
    · have outcome : ofLexeme (.fixed sort) text = .ok (.fixed sort) := if_pos accepted
      cases outcome.symm.trans read
      rcases accepted with bare | spelled
      · exact .inr ⟨sort, rfl, bare, rfl⟩
      · exact .inl spelled.symm
    · have outcome : ofLexeme (.fixed sort) text = .error (.misspelling (.fixed sort) text) :=
        if_neg accepted
      cases outcome.symm.trans read
  | keyword =>
    obtain ⟨word, spelled, rfl⟩ := Keyword.ofLexeme_keyword_iff.mp read
    exact .inl spelled
  | free sort =>
    cases read
    exact .inl rfl

theorem fst_lexeme (kind : TokenKind) : kind.lexeme.1 = kind.tag := by
  cases kind <;> rfl

theorem ofLexeme_lexeme (kind : TokenKind) : ofLexeme kind.lexeme.1 (kind.lexeme.2.getD "") = .ok kind := by
  cases kind with
  | fixed tag => exact ofLexeme_fixed (.inl rfl)
  | keyword word => exact ofLexeme_keyword rfl
  | free tag text => rfl

end TokenKind

open Text (Interner)

namespace FlatTag

variable {tag : FlatTag} {text : String}

/-- The text may stand under the tag: any text under a tag with a text of its own, the spelling of a keyword under
the keyword tag, and nothing or the spelling under a fixed tag. -/
def Liftable (tag : FlatTag) (text : String) : Prop :=
  tag.hasTextPayload ∨ (tag = .keyword ∧ ∃ word : Keyword, word.spelling = text) ∨
    (tag.isFixedSpelling ∧ (text = "" ∨ tag.defaultText? = some text))

/-- Why a text may not stand under a tag that leaves it no choice. -/
def refusal (tag : FlatTag) (text : String) : LiftError :=
  if tag = .keyword then .unknownKeyword text else .misspelling tag text

theorem defaultText?_eq (tag : FlatTag) : tag.defaultText? = tag.tag.spelling? := by
  cases tag <;> rfl

theorem isFixedSpelling_eq (tag : FlatTag) : tag.isFixedSpelling = tag.tag.isFixed := by
  rw [isFixedSpelling, defaultText?_eq, Tag.isFixed]

theorem hasTextPayload_eq (tag : FlatTag) : tag.hasTextPayload = tag.tag.isFree := by
  cases tag <;> rfl

theorem eq_rawTag_of_fixed {sort : FixedTag} (same : tag.tag = .fixed sort) : tag = sort.flatKind.rawTag := by
  cases tag <;> cases same <;> rfl

theorem eq_rawTag_of_free {sort : FreeTag} (same : tag.tag = .free sort) (name : Text.Name) :
    tag = (sort.flatKind name).rawTag := by
  cases tag <;> cases same <;> rfl

theorem eq_keyword (same : tag.tag = .keyword) : tag = .keyword := by
  cases tag <;> cases same
  rfl

theorem tag_injective : Function.Injective FlatTag.tag := by
  intro a b same
  cases sort : b.tag with
  | fixed fixed => rw [eq_rawTag_of_fixed (same.trans sort), eq_rawTag_of_fixed sort]
  | keyword => rw [eq_keyword (same.trans sort), eq_keyword sort]
  | free free => rw [eq_rawTag_of_free (same.trans sort) .empty, eq_rawTag_of_free sort .empty]

theorem lexemeError_refusal : (tag.refusal text).lexemeError = TokenKind.refusal tag.tag text := by
  by_cases keyword : tag = .keyword
  · subst keyword
    rfl
  · have other : tag.tag ≠ .keyword := fun same => keyword (eq_keyword same)
    rw [refusal, if_neg keyword, TokenKind.refusal, if_neg other]
    rfl

theorem liftable_iff : tag.Liftable text ↔ TokenKind.Readable tag.tag text := by
  have keyword : tag = .keyword ↔ tag.tag = .keyword := ⟨fun same => by rw [same]; rfl, eq_keyword⟩
  rw [Liftable, TokenKind.Readable, hasTextPayload_eq, isFixedSpelling_eq, defaultText?_eq, keyword]

end FlatTag

/-- The name of the text of a kind, with the interner that knows it. A kind without a text of its own needs none. -/
def TokenKind.interned (choose : String → Fin Text.Name.shardCount) (interner : Interner) :
    TokenKind → Except LiftPanic (Except LiftError FlatKind × Interner)
  | .fixed sort => .ok (.ok sort.flatKind, interner)
  | .keyword word => .ok (.ok (.keyword word), interner)
  | .free sort text => FlatKind.ofInterned choose interner text sort.flatKind

namespace FlatKind

variable {choose : String → Fin Text.Name.shardCount} {interner after : Interner} {known : Finset String}
  {kind : FlatKind} {tag : FlatTag} {text : String}

/-- The name that the kind carries, if any, is one of those that were given. -/
def Given (names : List Text.Name) (kind : FlatKind) : Prop := ∀ name, kind.payload? = some name → name ∈ names

/-- A kind stands for the one that carries the text in place of its name. -/
inductive Stands (choose : String → Fin Text.Name.shardCount) (interner : Interner) : FlatKind → TokenKind → Prop
  | fixed (sort : FixedTag) : Stands choose interner sort.flatKind (.fixed sort)
  | keyword (word : Keyword) : Stands choose interner (.keyword word) (.keyword word)
  | free (sort : FreeTag) {text : String} {name : Text.Name} : interner.name? choose text = some name →
    Stands choose interner (sort.flatKind name) (.free sort text)

theorem eq_flatKind_of_fixed {sort : FixedTag} (same : kind.rawTag.tag = .fixed sort) : kind = sort.flatKind := by
  cases kind <;> cases same <;> rfl

theorem exists_eq_keyword (same : kind.rawTag.tag = .keyword) : ∃ word, kind = .keyword word := by
  cases kind <;> cases same
  exact ⟨_, rfl⟩

theorem exists_eq_flatKind_of_free {sort : FreeTag} (same : kind.rawTag.tag = .free sort) :
    ∃ name, kind = sort.flatKind name ∧ kind.payload? = some name := by
  cases kind <;> cases same <;> exact ⟨_, rfl, rfl⟩

/-- A kind whose name was given stands for a kind with a text. -/
theorem exists_stands (named : ∀ name, kind.payload? = some name → ∃ text, interner.name? choose text = some name) :
    ∃ whole, Stands choose interner kind whole := by
  cases sort : kind.rawTag.tag with
  | fixed fixed =>
    rw [eq_flatKind_of_fixed sort]
    exact ⟨_, .fixed fixed⟩
  | keyword =>
    obtain ⟨word, rfl⟩ := exists_eq_keyword sort
    exact ⟨_, .keyword word⟩
  | free free =>
    obtain ⟨name, rfl, payload⟩ := exists_eq_flatKind_of_free sort
    obtain ⟨text, stored⟩ := named name payload
    exact ⟨_, .free free stored⟩

/-- The tables give a kind the tag, the spelling of its own, the text and the lexeme of the one it stands for, and
the name of its text. -/
theorem Stands.readings {whole : TokenKind} (stands : Stands choose interner kind whole)
    (holds : interner.Holds choose known) :
    kind.rawTag.tag = whole.tag ∧ kind.payload?.bind interner.lookup? = whole.payload? ∧
      kind.canonicalText? = whole.canonicalText? ∧ kind.text? interner = some whole.text ∧
      kind.lower? interner = some (kind.rawTag, whole.lexeme.2) := by
  cases stands with
  | fixed sort => cases sort <;> exact ⟨rfl, rfl, rfl, rfl, rfl⟩
  | keyword word => exact ⟨rfl, rfl, rfl, rfl, rfl⟩
  | @free sort text name stored =>
    have found := holds.lookup?_eq stored
    have payload : (sort.flatKind name).payload? = some name := by cases sort <;> rfl
    have lowered : (sort.flatKind name).lower? interner =
        (interner.lookup? name).map fun text => ((sort.flatKind name).rawTag, some text) := by cases sort <;> rfl
    refine ⟨by cases sort <;> rfl, ?_, by cases sort <;> rfl, ?_, ?_⟩
    · rw [payload, Option.bind_some, found]
      rfl
    · rw [text?, payload]
      exact found
    · rw [lowered, found]
      rfl

theorem Stands.interned {whole : TokenKind} (stands : Stands choose interner kind whole) :
    whole.interned choose interner = .ok (.ok kind, interner) := by
  cases stands with
  | fixed sort => rfl
  | keyword word => rfl
  | free sort stored => rw [TokenKind.interned, ofInterned, Interner.intern_of_name? stored]

/-- Comparing kinds with names compares those with texts. -/
theorem Stands.eq_iff {other : FlatKind} {whole whole' : TokenKind} (stands : Stands choose interner kind whole)
    (stands' : Stands choose interner other whole') (holds : interner.Holds choose known) :
    kind = other ↔ whole = whole' := by
  constructor
  · rintro rfl
    obtain ⟨tag, _, _, _, lowered⟩ := stands.readings holds
    obtain ⟨tag', _, _, _, lowered'⟩ := stands'.readings holds
    have pairs := Option.some.inj (lowered.symm.trans lowered')
    have text : whole.lexeme.2 = whole'.lexeme.2 := (Prod.mk.inj pairs).2
    have sort : whole.lexeme.1 = whole'.lexeme.1 := by rw [whole.fst_lexeme, whole'.fst_lexeme, ← tag, tag']
    have read := whole.ofLexeme_lexeme
    rw [text, sort, whole'.ofLexeme_lexeme] at read
    exact (Except.ok.inj read).symm
  · rintro rfl
    cases stands.interned.symm.trans stands'.interned
    rfl

/-- What is interned stands for what it was made from. -/
theorem stands_of_interned {whole : TokenKind} (holds : interner.Holds choose known)
    (ran : whole.interned choose interner = .ok (.ok kind, after)) :
    Stands choose after kind whole ∧ ∃ more, after.Holds choose more := by
  cases whole with
  | fixed sort =>
    cases ran
    exact ⟨.fixed sort, known, holds⟩
  | keyword word =>
    cases ran
    exact ⟨.keyword word, known, holds⟩
  | free sort text =>
    rw [TokenKind.interned, ofInterned] at ran
    cases first : interner.intern choose text with
    | error overflow =>
      rw [first] at ran
      cases ran
    | ok made =>
      rw [first] at ran
      cases ran
      obtain ⟨holdsAfter, _, stored⟩ := holds.of_intern first
      exact ⟨.free sort stored, _, holdsAfter⟩

theorem tryLift_of_fixed {sort : FixedTag} (same : tag.tag = .fixed sort) :
    tryLift choose interner tag text =
      if text ≠ "" ∧ some sort.spelling ≠ some text then .ok (.error (.misspelling tag text), interner)
      else .ok (.ok sort.flatKind, interner) := by
  cases tag <;> cases same <;> rfl

theorem tryLift_of_free {sort : FreeTag} (same : tag.tag = .free sort) :
    tryLift choose interner tag text = ofInterned choose interner text sort.flatKind := by
  cases tag <;> cases same <;> rfl

theorem tryLift_of_keyword {word : Keyword} (found : Keyword.ofSpelling? text = some word) :
    tryLift choose interner .keyword text = .ok (.ok (.keyword word), interner) := by
  unfold tryLift
  rw [found]

theorem tryLift_of_no_keyword (unknown : Keyword.ofSpelling? text = none) :
    tryLift choose interner .keyword text = .ok (.error (.unknownKeyword text), interner) := by
  unfold tryLift
  rw [unknown]

/-- Reading by the tables is reading by the sorts, with the text of the kind interned. The arm for tags that are
taken for fixed ones is never reached. -/
theorem tryLift_eq : tryLift choose interner tag text =
    match TokenKind.ofLexeme tag.tag text with
    | .ok whole => whole.interned choose interner
    | .error _ => .ok (.error (tag.refusal text), interner) := by
  cases sort : tag.tag with
  | free free => rw [tryLift_of_free sort]; rfl
  | keyword =>
    obtain rfl := FlatTag.eq_keyword sort
    cases found : Keyword.ofSpelling? text with
    | none =>
      have read : TokenKind.ofLexeme .keyword text = .error (.unknownKeyword text) := by
        unfold TokenKind.ofLexeme
        rw [found]
      rw [tryLift_of_no_keyword found, read, FlatTag.refusal, if_pos rfl]
    | some word =>
      have read : TokenKind.ofLexeme .keyword text = .ok (.keyword word) :=
        TokenKind.ofLexeme_keyword (Keyword.ofSpelling?_eq_some_iff.mp found)
      rw [tryLift_of_keyword found, read]
      change _ = TokenKind.interned choose interner (.keyword word)
      rw [TokenKind.interned]
  | fixed fixed =>
    by_cases given : text = "" ∨ text = fixed.spelling
    · have accepted : ¬ (text ≠ "" ∧ some fixed.spelling ≠ some text) := by
        rintro ⟨written, other⟩
        exact other (congrArg some (given.resolve_left written).symm)
      rw [tryLift_of_fixed sort, if_neg accepted, TokenKind.ofLexeme_fixed given]
      rfl
    · have refused : text ≠ "" ∧ some fixed.spelling ≠ some text := by
        rw [not_or] at given
        exact ⟨given.1, fun same => given.2 (Option.some.inj same).symm⟩
      have unreadable : ¬ TokenKind.Readable (.fixed fixed) text := by rwa [TokenKind.readable_fixed_iff]
      have noKeyword : tag ≠ .keyword := by
        rintro rfl
        cases sort
      rw [tryLift_of_fixed sort, if_pos refused, TokenKind.ofLexeme_of_not_readable unreadable, FlatTag.refusal,
        if_neg noKeyword]

/-- A lexeme that may not stand is refused, and nothing is interned. -/
theorem tryLift_of_not_liftable (unliftable : ¬ tag.Liftable text) :
    tryLift choose interner tag text = .ok (.error (tag.refusal text), interner) := by
  rw [FlatTag.liftable_iff] at unliftable
  rw [tryLift_eq, TokenKind.ofLexeme_of_not_readable unliftable]

/-- Reading stops without an answer exactly where the text is open and its name is refused. -/
theorem tryLift_error_iff {panic : LiftPanic} : tryLift choose interner tag text = .error panic ↔
    tag.hasTextPayload ∧ ∃ overflow, interner.intern choose text = .error overflow ∧ panic = .full overflow := by
  cases sort : tag.tag with
  | free free =>
    have payload : tag.hasTextPayload := by rw [FlatTag.hasTextPayload_eq, sort]; rfl
    rw [tryLift_of_free sort, ofInterned, and_iff_right payload]
    cases first : interner.intern choose text with
    | error overflow => simp [eq_comm]
    | ok made => simp
  | fixed fixed =>
    have noPayload : ¬ tag.hasTextPayload := by rw [FlatTag.hasTextPayload_eq, sort]; exact Bool.false_ne_true
    rw [tryLift_of_fixed sort]
    split <;> simp [noPayload]
  | keyword =>
    obtain rfl := FlatTag.eq_keyword sort
    have noPayload : ¬ FlatTag.keyword.hasTextPayload := by decide
    cases found : Keyword.ofSpelling? text with
    | none => rw [tryLift_of_no_keyword found]; simp [noPayload]
    | some word => rw [tryLift_of_keyword found]; simp [noPayload]

/-- A lexeme gives a kind exactly if it may stand and its text, where that is open, finds room. -/
theorem exists_tryLift_iff (holds : interner.Holds choose known) :
    (∃ kind after, tryLift choose interner tag text = .ok (.ok kind, after)) ↔
      tag.Liftable text ∧ (tag.hasTextPayload → Interner.HasRoom choose (insert text known)) := by
  constructor
  · rintro ⟨kind, after, lifted⟩
    constructor
    · by_contra unliftable
      rw [tryLift_of_not_liftable unliftable] at lifted
      cases lifted
    · intro payload
      apply holds.exists_intern_iff.mp
      cases first : interner.intern choose text with
      | ok made => exact ⟨made.1, made.2, rfl⟩
      | error overflow =>
        have stopped : tryLift choose interner tag text = .error (.full overflow) :=
          tryLift_error_iff.mpr ⟨payload, overflow, first, rfl⟩
        cases stopped.symm.trans lifted
  · rintro ⟨liftable, room⟩
    cases outcome : tryLift choose interner tag text with
    | error panic =>
      obtain ⟨payload, overflow, refused, _⟩ := tryLift_error_iff.mp outcome
      obtain ⟨name, after, ran⟩ := holds.exists_intern_iff.mpr (room payload)
      cases refused.symm.trans ran
    | ok answer =>
      obtain ⟨result, after⟩ := answer
      cases result with
      | ok kind => exact ⟨kind, after, rfl⟩
      | error refusal =>
        obtain ⟨whole, read, _⟩ := TokenKind.exists_ofLexeme_of_readable (FlatTag.liftable_iff.mp liftable)
        rw [tryLift_eq, read] at outcome
        cases whole with
        | fixed sort => cases outcome
        | keyword word => cases outcome
        | free sort text' =>
          change ofInterned choose interner text' sort.flatKind = _ at outcome
          rw [ofInterned] at outcome
          cases first : interner.intern choose text' <;> rw [first] at outcome <;> cases outcome

/-- A kind that is read stands for the kind of the lexeme, and has its tag. -/
theorem stands_of_tryLift (holds : interner.Holds choose known)
    (lifted : tryLift choose interner tag text = .ok (.ok kind, after)) :
    ∃ whole, TokenKind.ofLexeme tag.tag text = .ok whole ∧ Stands choose after kind whole ∧ kind.rawTag = tag ∧
      ∃ more, after.Holds choose more := by
  have liftable : tag.Liftable text := ((exists_tryLift_iff holds).mp ⟨kind, after, lifted⟩).1
  obtain ⟨whole, read, sameTag, _⟩ := TokenKind.exists_ofLexeme_of_readable (FlatTag.liftable_iff.mp liftable)
  rw [tryLift_eq, read] at lifted
  obtain ⟨stands, more, holdsAfter⟩ := stands_of_interned holds lifted
  have tags := (stands.readings holdsAfter).1
  exact ⟨whole, read, stands, FlatTag.tag_injective (tags.trans sameTag), more, holdsAfter⟩

/-- The lexeme of a kind reads as that kind, and its text is known already. -/
theorem tryLift_lower (holds : interner.Holds choose known)
    (named : ∀ name, kind.payload? = some name → ∃ text, interner.name? choose text = some name) :
    ∃ text?, kind.lower? interner = some (kind.rawTag, text?) ∧
      tryLift choose interner kind.rawTag (text?.getD "") = .ok (.ok kind, interner) := by
  obtain ⟨whole, stands⟩ := exists_stands named
  obtain ⟨sameTag, _, _, _, lowered⟩ := stands.readings holds
  have sort : whole.lexeme.1 = kind.rawTag.tag := by rw [sameTag, whole.fst_lexeme]
  refine ⟨whole.lexeme.2, lowered, ?_⟩
  rw [tryLift_eq, ← sort, TokenKind.ofLexeme_lexeme]
  exact stands.interned

end FlatKind

open FlatKind FlatTag in
/-- Lexemes and kinds in the tables, in any interner that a run of calls leads to. A lexeme gives a kind exactly if
it may stand and, where its text is open, the text finds room. One that may not stand is refused, for the reason that
the sorts of tags give, and nothing stops reading but the refusal to name a text. The kind that is read has the tag
and the text of the lexeme, or the tag's spelling where a fixed tag came bare, and it stands for the kind that the
sorts give. The lexeme of each kind reads as that kind without a new name, so kinds with one lexeme are one kind. -/
theorem lift_laws {choose : String → Fin Text.Name.shardCount} {earlier : List String} {names : List Text.Name}
    {interner : Interner} (ran : Interner.empty.internAll choose earlier = .ok (names, interner)) :
    (∀ tag text, (∃ kind after, tryLift choose interner tag text = .ok (.ok kind, after)) ↔
        tag.Liftable text ∧
          (tag.hasTextPayload → Interner.HasRoom choose ({""} ∪ (earlier ++ [text]).toFinset))) ∧
      (∀ tag text, ¬ tag.Liftable text →
        tryLift choose interner tag text = .ok (.error (tag.refusal text), interner) ∧
          TokenKind.ofLexeme tag.tag text = .error (tag.refusal text).lexemeError) ∧
      (∀ tag text panic, tryLift choose interner tag text = .error panic ↔
        tag.hasTextPayload ∧ ∃ overflow, interner.intern choose text = .error overflow ∧ panic = .full overflow) ∧
      (∀ tag text kind after, tryLift choose interner tag text = .ok (.ok kind, after) →
        kind.rawTag = tag ∧
          kind.lower? after = some (tag, if tag.isFixedSpelling then none else some text) ∧
          kind.text? after = some (if tag.isFixedSpelling ∧ text = "" then tag.defaultText?.getD "" else text) ∧
          ∃ whole, TokenKind.ofLexeme tag.tag text = .ok whole ∧ Stands choose after kind whole) ∧
      (∀ kind, kind.Given (.empty :: names) → ∃ text?, kind.lower? interner = some (kind.rawTag, text?) ∧
        tryLift choose interner kind.rawTag (text?.getD "") = .ok (.ok kind, interner)) ∧
      ∀ a b : FlatKind, a.Given (.empty :: names) → b.Given (.empty :: names) →
        (a = b ↔ a.lower? interner = b.lower? interner) := by
  have holds := (Interner.holds_empty.of_internAll ran).1
  have named {kind : FlatKind} (given : kind.Given (.empty :: names)) (name : Text.Name)
      (payload : kind.payload? = some name) : ∃ text, interner.name? choose text = some name :=
    Interner.exists_text_of_given ran (given name payload)
  refine ⟨?lifts, ?refused, ?stops, ?lifted, ?lowered, ?injective⟩
  case lifts =>
    intro tag text
    rw [Interner.union_concat]
    exact exists_tryLift_iff holds
  case refused =>
    intro tag text unliftable
    refine ⟨tryLift_of_not_liftable unliftable, ?_⟩
    rw [liftable_iff] at unliftable
    rw [TokenKind.ofLexeme_of_not_readable unliftable, lexemeError_refusal]
  case stops =>
    intro tag text panic
    exact tryLift_error_iff
  case lifted =>
    intro tag text kind after lifted
    obtain ⟨whole, read, stands, sameTag, more, holdsAfter⟩ := stands_of_tryLift holds lifted
    obtain ⟨_, _, _, written, lowered⟩ := stands.readings holdsAfter
    have readable : TokenKind.Readable tag.tag text := TokenKind.exists_ofLexeme_iff.mp ⟨whole, read⟩
    obtain ⟨whole', read', _, lexeme, spelled⟩ := TokenKind.exists_ofLexeme_of_readable readable
    cases read.symm.trans read'
    rw [sameTag, lexeme, ← isFixedSpelling_eq] at lowered
    rw [spelled, ← isFixedSpelling_eq, ← defaultText?_eq] at written
    exact ⟨sameTag, lowered, written, whole, read, stands⟩
  case lowered =>
    intro kind given
    exact tryLift_lower holds (named given)
  case injective =>
    intro a b given given'
    constructor
    · rintro rfl
      rfl
    · intro same
      obtain ⟨text?, lowered, lifted⟩ := tryLift_lower holds (named given)
      obtain ⟨text?', lowered', lifted'⟩ := tryLift_lower holds (named given')
      rw [lowered, lowered'] at same
      obtain ⟨sameTag, rfl⟩ := Prod.mk.inj (Option.some.inj same)
      rw [sameTag, lifted'] at lifted
      cases lifted
      rfl

open FlatKind in
/-- A misspelled arrow and a word that is no keyword are refused, a bare arrow gets its spelling, and a new
identifier gets a name. -/
theorem lift_laws_sample : ∃ names interner,
    Interner.empty.internAll (fun _ => 3) ["x"] = .ok (names, interner) ∧
      tryLift (fun _ => 3) interner .arrow "=>" = .ok (.error (.misspelling .arrow "=>"), interner) ∧
      tryLift (fun _ => 3) interner .keyword "Class" = .ok (.error (.unknownKeyword "Class"), interner) ∧
      (∃ kind after, tryLift (fun _ => 3) interner .arrow "" = .ok (.ok kind, after) ∧
        kind.rawTag = .arrow ∧ kind.text? after = some "->") ∧
      ∃ kind after, tryLift (fun _ => 3) interner .identifier "y" = .ok (.ok kind, after) ∧
        kind.rawTag = .identifier ∧ kind.lower? after = some (.identifier, some "y") ∧
          kind.text? after = some "y" := by
  have few (text : String) : Interner.HasRoom (fun _ => 3) ({""} ∪ (["x"] ++ [text]).toFinset) := by
    intro shard
    apply (Finset.card_filter_le _ _).trans
    rw [Interner.union_concat]
    exact (Finset.card_insert_le _ _).trans (by decide)
  have room : Interner.HasRoom (fun _ => 3) ({""} ∪ ["x"].toFinset) := by
    apply (few "y").mono
    rw [Interner.union_concat]
    exact Finset.subset_insert _ _
  obtain ⟨names, interner, ran⟩ := Interner.holds_empty.exists_internAll room
  obtain ⟨lifts, refused, _, lifted, _, _⟩ := lift_laws ran
  refine ⟨names, interner, ran, (refused _ _ ?_).1, (refused _ _ ?_).1, ?_, ?_⟩
  · rintro (payload | ⟨keyword, _⟩ | ⟨_, given⟩)
    · exact absurd payload (by decide)
    · cases keyword
    · exact absurd given (by decide)
  · rintro (payload | ⟨_, word, spelled⟩ | ⟨fixed, _⟩)
    · exact absurd payload (by decide)
    · cases word <;> exact absurd spelled (by decide)
    · exact absurd fixed (by decide)
  · obtain ⟨kind, after, made⟩ := (lifts .arrow "").mpr ⟨.inr (.inr ⟨rfl, .inl rfl⟩), fun _ => few ""⟩
    obtain ⟨tag, _, text, _⟩ := lifted _ _ _ _ made
    exact ⟨kind, after, made, tag, text⟩
  · obtain ⟨kind, after, made⟩ := (lifts .identifier "y").mpr ⟨.inl rfl, fun _ => few "y"⟩
    obtain ⟨tag, lowered, text, _⟩ := lifted _ _ _ _ made
    exact ⟨kind, after, made, tag, lowered, text⟩

/-- However the texts are spread, some numeral is refused under the identifier tag, which leaves its text open, when
the numerals are interned in order. -/
theorem not_lifts_numerals : ¬ ∃ choose : String → Fin Text.Name.shardCount, ∀ count < 2 ^ 32, ∀ names interner,
    Interner.empty.internAll choose ((List.range count).map Nat.repr) = .ok (names, interner) →
      ((∃ kind after, FlatKind.tryLift choose interner .identifier count.repr = .ok (.ok kind, after)) ↔
        FlatTag.identifier.Liftable count.repr) := by
  rintro ⟨choose, lifts⟩
  have run (count : Nat) (within : count ≤ 2 ^ 32) : ∃ names interner,
      Interner.empty.internAll choose ((List.range count).map Nat.repr) = .ok (names, interner) := by
    induction count with
    | zero => exact ⟨[], .empty, rfl⟩
    | succ count ih =>
      obtain ⟨names, interner, ran⟩ := ih (Nat.le_of_succ_le within)
      have lifted := (lifts count within names interner ran).mpr (.inl rfl)
      have holds := (Interner.holds_empty.of_internAll ran).1
      have room := ((FlatKind.exists_tryLift_iff holds).mp lifted).2 rfl
      rw [List.range_succ, List.map_append]
      apply Interner.holds_empty.exists_internAll
      rwa [List.map_singleton, Interner.union_concat]
  obtain ⟨names, interner, ran⟩ := run (2 ^ 32) (Nat.le_refl _)
  exact Interner.not_hasRoom_numerals (by decide) (Interner.holds_empty.of_internAll ran).1.room

end LosslessSyntax
