/- # Proviso.Proofs.Clause.RoundTrip -- what is written is what is parsed

A text of a clause is derivable with a tree that stands for the clause.  The matcher finds that
tree up to blanks, and blanks do not change what a tree stands for. -/
import Proviso.Proofs.Clause.Complete
import Proviso.Proofs.Clause.Meaning
import Proviso.Proofs.Clause.Readings

namespace Proviso

set_option autoImplicit false

namespace Phrase

open Grammar

variable {start stop : Cursor}

/-! ## Clauses as they are written -/

/-- Blanks lead to the end of the text. -/
theorem exists_end (all_blank : ∀ c ∈ stop.rest, isBlank c = true) :
    ∃ last, last.rest = [] ∧ grammar.Blanks free stop last :=
  ⟨⟨[], stop.offset + stop.rest.length⟩, rfl, stop.rest, all_blank, by simp, rfl⟩

theorem lacks_of_blanks (all_blank : ∀ c ∈ stop.rest, isBlank c = true) :
    stop.Lacks isIdentChar := by
  intro c here
  exact (blank_apart (all_blank c (List.mem_of_mem_head? here))).1

/-- No phrase that stands for an expression is a rule with a message. -/
theorem name_ne_extended {tree : Tree Phrase} {expr : Expr} (read : Expr.ofTree tree = .ok expr) :
    tree.name ≠ .extended := by
  obtain ⟨name, offset, text, children⟩ := tree
  rintro rfl
  cases read

theorem ofTree_plain {tree : Tree Phrase} {expr : Expr} (read : Expr.ofTree tree = .ok expr)
    (offset : Nat) (text : List Char) (rest : List (Tree Phrase)) :
    Clause.ofTree (.node .clause offset text (tree :: rest)) = .ok ⟨expr, none⟩ := by
  have other := name_ne_extended read
  obtain ⟨name, tree_offset, tree_text, children⟩ := tree
  simp only [Tree.name] at other
  rw [Clause.ofTree, read]
  · rfl
  all_goals simp [other]

/-- A text that a clause or an expression takes up, blanks aside, is derivable as a clause. -/
theorem derives_clause {place last : Cursor} {tree : Tree Phrase} (first : start.offset = 0)
    (blanks : grammar.Blanks free start place)
    (derives : grammar.Derivable (.choice (.phrase .extended) (.phrase .expression)) free place
      ⟨[tree], stop⟩)
    (to_last : grammar.Blanks free stop last) (is_last : last.rest = []) :
    ∃ offset text ending, grammar.Derivable (.phrase .clause) free start
      ⟨[.node .clause offset text [tree, ending]], last⟩ := by
  have ending : grammar.Derivable (.phrase .endOfInput) free last
      ⟨[.node .endOfInput last.offset (last.textTo last) []], last⟩ :=
    derives_node (by decide) rfl (.endOfInput is_last)
  have form : grammar.Derivable (Phrase.form .clause) free start
      ⟨[tree, .node .endOfInput last.offset (last.textTo last) []], last⟩ :=
    .seq (.startOfInput first) blanks (.seq derives to_last ending)
  exact ⟨_, _, _, derives_node (by decide) rfl form⟩

/-- A rule with a message is derivable where its tokens are laid out. -/
theorem extended_of_lays {rule message : Expr} {first second last : List (List Char)}
    (rule_means : Means first rule) (message_means : Means second message)
    (last_eq : last = [] ∨ last = [[';']])
    (lays : Lays ("@:".toList :: (first ++ [';'] :: "msg:".toList :: (second ++ last))) start stop)
    (ends : stop.Lacks isIdentChar) :
    ∃ place tree tree' offset text, grammar.Blanks free start place ∧
      grammar.Derivable (.phrase .extended) free place
        ⟨[.node .extended offset text [tree, tree']], stop⟩ ∧
      Expr.ofTree tree = .ok rule ∧ Expr.ofTree tree' = .ok message := by
  obtain ⟨place, after, to_place, mark, lays⟩ := lays
  obtain ⟨middle, lays_rule, lays⟩ := lays.split
  have rule_ends := lays.lacks rfl
  obtain ⟨semicolon, behind, to_semicolon, separator, word, message_start, to_word, is_word,
    lays⟩ := lays
  obtain ⟨close, lays_message, lays_last⟩ := lays.split
  have message_ends : close.Lacks isIdentChar := by
    rcases last_eq with rfl | rfl
    · cases lays_last
      exact ends
    · exact lays_last.lacks rfl
  obtain ⟨rule_place, tree, to_rule, in_rule, read, -⟩ :=
    rule_means after middle lays_rule rule_ends
  obtain ⟨message_place, tree', to_message, in_message, read', -⟩ :=
    message_means message_start close lays_message message_ends
  have message_part : grammar.Derivable (.seq (.phrase .expression) lastSemicolon) free
      message_place ⟨[tree'], stop⟩ := by
    rcases last_eq with rfl | rfl
    · cases lays_last
      exact derives_seq_adjacent in_message .omitted
    · obtain ⟨last_place, last_stop, to_last, is_last, rfl⟩ := lays_last
      exact .seq in_message to_last (.given (spelled_text is_last))
  have form : grammar.Derivable (Phrase.form .extended) free place ⟨[tree, tree'], stop⟩ :=
    .seq (spelled_text mark) to_rule (.seq in_rule to_semicolon (.seq (spelled_text separator)
      to_word (.seq (spelled_text is_word) to_message message_part)))
  exact ⟨place, tree, tree', _, _, to_place, derives_node (by decide) rfl form, read, read'⟩

/-- A text that is laid out as the tokens of a condition is derivable as a clause. -/
theorem derivation_of_means {expr : Expr} {tokens : List (List Char)} {text : List Char}
    (means : Means tokens expr) (laid : LaidOut tokens text) :
    ∃ tree last, grammar.Derivable (.phrase .clause) free ⟨text, 0⟩ ⟨[tree], last⟩ ∧
      Clause.ofTree tree = .ok ⟨expr, none⟩ := by
  obtain ⟨stop, lays, all_blank⟩ := lays_of_laidOut laid 0
  obtain ⟨last, is_last, to_last⟩ := exists_end all_blank
  obtain ⟨place, tree, blanks, derives, read, -⟩ :=
    means _ stop lays (lacks_of_blanks all_blank)
  obtain ⟨offset, span, ending, whole⟩ :=
    derives_clause rfl blanks (.second derives) to_last is_last
  exact ⟨_, last, whole, ofTree_plain read offset span [ending]⟩

/-- A text that is laid out as the tokens of a condition and a message is derivable as a clause. -/
theorem derivation_of_message {condition message : Expr} {first second final : List (List Char)}
    {text : List Char} (condition_means : Means first condition)
    (message_means : Means second message) (final_eq : final = [] ∨ final = [[';']])
    (laid : LaidOut ("@:".toList :: (first ++ [';'] :: "msg:".toList :: (second ++ final))) text) :
    ∃ tree last, grammar.Derivable (.phrase .clause) free ⟨text, 0⟩ ⟨[tree], last⟩ ∧
      Clause.ofTree tree = .ok ⟨condition, some message⟩ := by
  obtain ⟨stop, lays, all_blank⟩ := lays_of_laidOut laid 0
  obtain ⟨last, is_last, to_last⟩ := exists_end all_blank
  obtain ⟨place, tree, tree', inner_offset, inner_text, blanks, derives, read, read'⟩ :=
    extended_of_lays condition_means message_means final_eq lays (lacks_of_blanks all_blank)
  obtain ⟨offset, span, ending, whole⟩ :=
    derives_clause rfl blanks (.first derives) to_last is_last
  refine ⟨_, last, whole, ?_⟩
  rw [Clause.ofTree, read, read']
  rfl

/-- A clause is derivable where its tokens are laid out, with a tree that stands for it. -/
theorem exists_derivation {clause : Clause} {tokens : List (List Char)} {text : List Char}
    (printable : clause.Printable) (written : clause.Written tokens)
    (laid : LaidOut tokens text) :
    ∃ tree last, grammar.Derivable (.phrase .clause) free ⟨text, 0⟩ ⟨[tree], last⟩ ∧
      Clause.ofTree tree = .ok clause := by
  obtain ⟨condition, message⟩ := clause
  cases message with
  | none => exact derivation_of_means (means_of_written printable.1 written) laid
  | some message =>
    obtain ⟨first, second, final, condition_written, message_written, final_eq, rfl⟩ := written
    exact derivation_of_message (means_of_written printable.1 condition_written)
      (means_of_written (printable.2 message rfl) message_written) final_eq laid

/-! ## Parsing -/

/-- A text is parsed as what its derivation stands for, if that is a clause. -/
theorem parse_toOption_of_derivation {text : List Char} {tree : Tree Phrase} {last : Cursor}
    (derives : grammar.Derivable (.phrase .clause) free ⟨text, 0⟩ ⟨[tree], last⟩) :
    (Clause.parse (String.ofList text)).toOption = (Clause.ofTree tree).toOption := by
  obtain ⟨-, ⟨trees, cursor⟩, taken, -, same⟩ := finds_clause derives
  have derivable := derives_of_take taken
  have parsed : Phrase.clause.parse (String.ofList text) = .ok trees :=
    parse_eq_ok_iff.mpr ⟨cursor, by rwa [String.toList_ofList]⟩
  cases trees with
  | nil => cases same
  | cons other rest =>
    have trimmed : grammar.trimTree other = grammar.trimTree tree := (List.cons.inj same).1
    rw [← clause_trimTree (legible_of_derives derives).1, ← trimmed,
      clause_trimTree (legible_of_derives derivable).1, Clause.parse, parsed]
    show ((Clause.ofTree other).mapError _).toOption = _
    cases Clause.ofTree other <;> rfl

/-- Whatever clause a derivation of a text stands for, the text is parsed as that clause. -/
theorem parse_of_derivation {clause : Clause} {text : List Char} {tree : Tree Phrase}
    {last : Cursor} (derives : grammar.Derivable (.phrase .clause) free ⟨text, 0⟩ ⟨[tree], last⟩)
    (read : Clause.ofTree tree = .ok clause) :
    Clause.parse (String.ofList text) = .ok clause := by
  refine eq_ok_of_toOption_eq_some ?_
  rw [parse_toOption_of_derivation derives, read]
  rfl

end Phrase

/-- Every printable clause has a text, and each of its texts is parsed as the clause. -/
theorem Clause.parse_written (clause : Clause) (printable : clause.Printable) :
    (∃ tokens, clause.Written tokens) ∧
      ∀ tokens text, clause.Written tokens → LaidOut tokens text →
        Clause.parse (String.ofList text) = .ok clause := by
  refine ⟨exists_clause_written printable, fun tokens text written laid => ?_⟩
  obtain ⟨tree, last, derives, read⟩ := Phrase.exists_derivation printable written laid
  exact Phrase.parse_of_derivation derives read

/-- A rule about a length and a flag, with a message that has a quote in it. -/
def Clause.lengthRule : Clause :=
  ⟨.connective .and (.comparison .ge (.call "len" [.current]) (.literal (.int (-3))))
      (.unary .not (.sibling [.field "a", .index 0, .field "b"])),
    some (.literal (.str "it's short"))⟩

theorem Clause.parse_written_lengthRule :
    lengthRule.Printable ∧
      (∃ tokens, lengthRule.Written tokens ∧
        LaidOut tokens "@: ((len($)) >= (-3)) && (!((a[0].b) $)); msg: 'it\\'s short' ;".toList) ∧
      Clause.parse "@: ((len($)) >= (-3)) && (!((a[0].b) $)); msg: 'it\\'s short' ;" =
        .ok lengthRule := by
  have printable : lengthRule.Printable := by
    refine ⟨⟨⟨⟨rfl, trivial, trivial⟩, (by decide : (-3 : Int64) ≠ Int64.minValue)⟩,
      ⟨rfl, fun step listed => ?_⟩, fun never => by cases never⟩, fun message given => ?_⟩
    · simp only [List.mem_cons, List.not_mem_nil, or_false] at listed
      rcases listed with rfl | rfl
      · exact (by decide : 0 < UInt64.size)
      · rfl
    · cases given
      trivial
  have length_written : Expr.Written (.call "len" [.current]) ["len".toList, ['('], ['$'], [')']] :=
    ⟨_, ⟨_, _, rfl, rfl, rfl⟩, rfl⟩
  have number_written : Expr.Written (.literal (.int (-3))) [['-'], ['3']] :=
    ⟨['3'], ⟨by decide, List.all_eq_true.mp rfl, rfl⟩, rfl⟩
  have path_written : PathWritten [.field "a", .index 0, .field "b"] "a[0].b".toList :=
    ⟨_, ⟨_, _, ⟨['0'], ⟨by decide, List.all_eq_true.mp rfl, rfl⟩, rfl⟩, ⟨_, _, rfl, rfl, rfl⟩, rfl⟩,
      rfl⟩
  have message_written : Expr.Written (.literal (.str "it's short")) ["'it\\'s short'".toList] :=
    ⟨'\'', .inl rfl, rfl⟩
  obtain ⟨tokens, written, laid⟩ : ∃ tokens, lengthRule.Written tokens ∧
      LaidOut tokens "@: ((len($)) >= (-3)) && (!((a[0].b) $)); msg: 'it\\'s short' ;".toList := by
    refine ⟨_, ⟨_, _, _, ⟨_, _, ⟨_, _, length_written, number_written, rfl⟩,
      ⟨_, ⟨_, path_written, rfl⟩, rfl⟩, rfl⟩, message_written, .inr rfl, rfl⟩, ?_⟩
    have none_blank : ∀ c ∈ ([] : List Char), Phrase.isBlank c = true := by simp
    have one_blank : ∀ c ∈ [' '], Phrase.isBlank c = true := List.all_eq_true.mp rfl
    exact ⟨[], _, none_blank, rfl, [' '], _, one_blank, rfl, [], _, none_blank, rfl,
      [], _, none_blank, rfl, [], _, none_blank, rfl, [], _, none_blank, rfl,
      [], _, none_blank, rfl, [], _, none_blank, rfl, [' '], _, one_blank, rfl,
      [' '], _, one_blank, rfl, [], _, none_blank, rfl, [], _, none_blank, rfl,
      [], _, none_blank, rfl, [], _, none_blank, rfl, [' '], _, one_blank, rfl,
      [' '], _, one_blank, rfl, [], _, none_blank, rfl, [], _, none_blank, rfl,
      [], _, none_blank, rfl, [], _, none_blank, rfl, [], _, none_blank, rfl,
      [' '], _, one_blank, rfl, [], _, none_blank, rfl, [], _, none_blank, rfl,
      [], _, none_blank, rfl, [' '], _, one_blank, rfl, [' '], _, one_blank, rfl,
      [' '], _, one_blank, rfl, none_blank⟩
  exact ⟨printable, ⟨tokens, written, laid⟩,
    (Clause.parse_written lengthRule printable).2 tokens _ written laid⟩

end Proviso
