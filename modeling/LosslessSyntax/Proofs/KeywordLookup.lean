import Mathlib.Data.Finset.Card
import LosslessSyntax.Token.Kind

/-!
# Looking up keywords

The table answers as a search through all keywords would. A table of any keywords gives the last one with a
spelling (`Table.find?_ofList`), and the bounds on the lengths turn away nothing that it holds. The main statement
is `lookup_exact`: no two keywords are spelled alike, so each one is found under its spelling and nowhere else.
-/

namespace LosslessSyntax.Keyword

namespace Table

variable (keywords : List Keyword) (text : String)

theorem bySpelling_concat (last : Keyword) :
    (ofList (keywords ++ [last])).bySpelling = (ofList keywords).bySpelling.insert last.spelling last := by
  simp [ofList]

/-- Of the keywords with one spelling the last one stays. -/
theorem getElem?_bySpelling :
    (ofList keywords).bySpelling[text]? = (keywords.filter (·.spelling = text)).getLast? := by
  induction keywords using List.reverseRecOn with
  | nil => simp [ofList]
  | append_singleton front last ih =>
    rw [bySpelling_concat, Std.HashMap.getElem?_insert, List.filter_append, ih]
    by_cases same : last.spelling = text
    · simp [same]
    · simp [same]

theorem mem_bySpelling_iff : text ∈ (ofList keywords).bySpelling ↔ text ∈ keywords.map spelling := by
  induction keywords using List.reverseRecOn with
  | nil => simp [ofList]
  | append_singleton front last ih =>
    rw [bySpelling_concat, Std.HashMap.mem_insert, ih, beq_iff_eq, List.map_append, List.mem_append,
      List.map_singleton, List.mem_singleton, or_comm, eq_comm (a := text)]

/-- The bounds on the lengths turn nothing away that is in the table. -/
theorem find?_ofList : (ofList keywords).find? text = (keywords.filter (·.spelling = text)).getLast? := by
  rw [← getElem?_bySpelling, find?]
  split
  case isTrue => rfl
  case isFalse outside =>
    refine (Std.HashMap.getElem?_eq_none fun member => ?_).symm
    rw [mem_bySpelling_iff] at member
    obtain ⟨word, within, rfl⟩ := List.mem_map.mp member
    have length : word.spelling.utf8ByteSize ∈ keywords.map (·.spelling.utf8ByteSize) :=
      List.mem_map_of_mem within
    exact outside ⟨List.min?_getD_le_of_mem length, List.le_max?_getD_of_mem length⟩

/-- There is one entry for each spelling. -/
theorem size_bySpelling : (ofList keywords).bySpelling.size = (keywords.map spelling).toFinset.card := by
  induction keywords using List.reverseRecOn with
  | nil => simp [ofList]
  | append_singleton front last ih =>
    have others : (front.map spelling ++ [last].map spelling).toFinset =
        insert last.spelling (front.map spelling).toFinset := by
      rw [List.map_singleton, List.toFinset_append, Finset.union_comm]
      rfl
    rw [bySpelling_concat, Std.HashMap.size_insert, List.map_append, others, Finset.card_insert_eq_ite, ih]
    simp only [mem_bySpelling_iff, List.mem_toFinset]

/-- There are as many entries as keywords exactly when no two are spelled alike. -/
theorem size_bySpelling_eq_iff :
    (ofList keywords).bySpelling.size = keywords.length ↔ (keywords.map spelling).Nodup := by
  rw [size_bySpelling, ← Multiset.coe_nodup, ← Multiset.toFinset_card_eq_card_iff_nodup, Multiset.coe_card,
    List.length_map]
  rfl

theorem foldl_register (table : Table) :
    keywords.foldl register table =
      ⟨keywords.foldl (fun entries keyword => entries.insert keyword.spelling keyword) table.bySpelling,
        (keywords.map (·.spelling.utf8ByteSize)).foldl min table.shortest,
        (keywords.map (·.spelling.utf8ByteSize)).foldl max table.longest⟩ := by
  induction keywords generalizing table with
  | nil => rfl
  | cons first rest ih => rw [List.foldl_cons, ih]; rfl

variable {keywords}

/-- The bounds end up at the least and the greatest length, wherever they start, if a length is a machine word. -/
theorem fill_eq_ofList (nonempty : keywords ≠ [])
    (words : ∀ word ∈ keywords, word.spelling.utf8ByteSize < USize.size) :
    fill keywords = ofList keywords := by
  cases keywords with
  | nil => exact absurd rfl nonempty
  | cons first rest =>
    have low : min (USize.size - 1) first.spelling.utf8ByteSize = first.spelling.utf8ByteSize :=
      Nat.min_eq_right (Nat.le_sub_one_of_lt (words first List.mem_cons_self))
    rw [fill, foldl_register, ofList]
    simp only [unfilled, List.map_cons, List.foldl_cons, List.min?_cons', List.max?_cons', low, Nat.zero_max,
      Option.getD_some]

theorem bySpelling_fill : (fill keywords).bySpelling = (ofList keywords).bySpelling := by
  rw [fill, foldl_register]
  rfl

theorem fill_concat (front : List Keyword) (last : Keyword) :
    fill (front ++ [last]) = (fill front).register last := by
  simp [fill]

/-- Registering fails exactly where two keywords are spelled alike. -/
theorem fill?_eq : fill? keywords = if (keywords.map spelling).Nodup then some (fill keywords) else none := by
  induction keywords using List.reverseRecOn with
  | nil => rfl
  | append_singleton front last ih =>
    have step : fill? (front ++ [last]) = (fill? front).bind (·.registerNew? last) := by
      rw [fill?, List.foldlM_append, ← fill?]
      simp
    have distinct : ((front ++ [last]).map spelling).Nodup ↔
        (front.map spelling).Nodup ∧ last.spelling ∉ front.map spelling := by
      rw [List.map_append, List.map_singleton, List.nodup_append_comm, List.singleton_append, List.nodup_cons,
        and_comm]
    rw [step, ih, fill_concat]
    by_cases before : (front.map spelling).Nodup
    · rw [if_pos before, Option.bind_some, registerNew?, bySpelling_fill]
      simp only [mem_bySpelling_iff, distinct, before, true_and, ite_not]
    · rw [if_neg before, if_neg fun both => before (distinct.mp both).1, Option.bind_none]

end Table

theorem mem_all (word : Keyword) : word ∈ all := by
  cases word <;> decide

theorem nodup_spelling : (all.map spelling).Nodup := by
  decide

theorem spelling_injective : Function.Injective spelling := fun a b same =>
  List.inj_on_of_nodup_map nodup_spelling a.mem_all b.mem_all same

/-- A word is found under its spelling and nowhere else. -/
theorem ofSpelling?_eq_some_iff {text : String} {word : Keyword} :
    ofSpelling? text = some word ↔ word.spelling = text := by
  have spelled {other : Keyword} (last : ofSpelling? text = some other) : other.spelling = text := by
    rw [ofSpelling?, table, Table.find?_ofList] at last
    simpa using (List.mem_filter.mp (List.mem_of_getLast? last)).2
  refine ⟨spelled, ?_⟩
  rintro rfl
  cases found : ofSpelling? word.spelling with
  | some other => rw [spelling_injective (spelled found)]
  | none =>
    rw [ofSpelling?, table, Table.find?_ofList, List.getLast?_eq_none_iff, List.filter_eq_nil_iff] at found
    exact absurd (decide_eq_true rfl) (found word word.mem_all)

theorem ofSpelling?_eq_none_iff {text : String} :
    ofSpelling? text = none ↔ ¬ ∃ word : Keyword, word.spelling = text := by
  rw [Option.eq_none_iff_forall_ne_some]
  simp only [ne_eq, ofSpelling?_eq_some_iff, not_exists]

/-- Looking up is searching through all keywords. -/
theorem ofSpelling?_eq_find? (text : String) : ofSpelling? text = all.find? (·.spelling = text) := by
  cases found : all.find? (·.spelling = text) with
  | some word =>
    rw [ofSpelling?_eq_some_iff]
    simpa using List.find?_some found
  | none =>
    rw [ofSpelling?_eq_none_iff]
    rintro ⟨word, spelled⟩
    exact absurd (decide_eq_true spelled) (List.find?_eq_none.mp found word word.mem_all)

theorem fill_all : Table.fill all = table := by
  have short : ∀ word ∈ all, word.spelling.utf8ByteSize < 2 ^ 32 := by decide
  exact Table.fill_eq_ofList (by decide) fun word member => Nat.lt_of_lt_of_le (short word member) USize.le_size

theorem ofLexeme_keyword_iff {text : String} {kind : TokenKind} :
    TokenKind.ofLexeme .keyword text = .ok kind ↔
      ∃ word : Keyword, word.spelling = text ∧ kind = .keyword word := by
  simp only [← ofSpelling?_eq_some_iff]
  unfold TokenKind.ofLexeme
  cases ofSpelling? text with
  | none => simp
  | some word => simp [eq_comm]

/-- A keyword is found under its spelling, letter for letter, and no other text is one: looking up in the table is
searching through all keywords. The table is what comes of registering them one after the other, no spelling is
taken twice, and there is an entry for each. So a lexeme with the keyword tag is read exactly when its text is
spelled as a keyword, and as that one. -/
theorem lookup_exact :
    (∀ text word, ofSpelling? text = some word ↔ word.spelling = text) ∧
      (∀ text, ofSpelling? text = all.find? (·.spelling = text)) ∧
      (Table.fill all = table ∧ Table.fill? all = some table) ∧
      (table.bySpelling.size = all.length ∧ ∀ word, all.count word = 1) ∧
      ∀ text kind, TokenKind.ofLexeme .keyword text = .ok kind ↔
        ∃ word : Keyword, word.spelling = text ∧ kind = .keyword word := by
  refine ⟨fun text word => ofSpelling?_eq_some_iff, ofSpelling?_eq_find?, ⟨fill_all, ?_⟩, ⟨?_, fun word => ?_⟩,
    fun text kind => ofLexeme_keyword_iff⟩
  · rw [Table.fill?_eq, if_pos nodup_spelling, fill_all]
  · exact (Table.size_bySpelling_eq_iff all).mpr nodup_spelling
  · exact List.count_eq_one_of_mem nodup_spelling.of_map word.mem_all

end LosslessSyntax.Keyword
