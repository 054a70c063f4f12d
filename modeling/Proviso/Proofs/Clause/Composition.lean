/- # Proviso.Proofs.Clause.Composition -- clauses are put together as texts

A text that is accepted as a condition alone can be used as one token: wherever it stands, and a
name would end behind it, it stands for its expression (`means_of_parse`).  For the derivation of the
text can be moved there.  So texts that are accepted can be put in parentheses, handed to a function,
or made the condition and the message of a clause, and what comes out is put together from what they
stand for (`Clause.parse_composed`). -/
import Proviso.Proofs.Clause.Locality
import Proviso.Proofs.Clause.RoundTrip

namespace Proviso

set_option autoImplicit false

namespace Phrase

open Grammar

/-! ## Accepted texts as tokens -/

/-- A clause that a text is parsed as is read off a derivation of the text. -/
theorem derivation_of_parse {source : String} {clause : Clause}
    (parsed : Clause.parse source = .ok clause) :
    ∃ tree rest last, grammar.Derivable (.phrase .clause) free ⟨source.toList, 0⟩
      ⟨tree :: rest, last⟩ ∧ Clause.ofTree tree = .ok clause := by
  obtain ⟨trees, matched, read⟩ := exists_of_bind_eq_ok parsed
  obtain ⟨last, taken⟩ := parse_eq_ok_iff.mp matched
  match trees, taken, read with
  | tree :: rest, taken, read =>
    refine ⟨tree, rest, last, derivable_of_take_phrase taken, ?_⟩
    cases outcome : Clause.ofTree tree with
    | error error =>
      simp only [outcome] at read
      cases read
    | ok other =>
      simp only [outcome] at read
      cases read
      rfl

/-- The tree of a text that is parsed as a condition alone is that of an expression. -/
theorem ofTree_of_plain {tree : Tree Phrase} {expr : Expr} {offset : Nat} {text : List Char}
    {rest : List (Tree Phrase)}
    (read : Clause.ofTree (.node .clause offset text (tree :: rest)) = .ok ⟨expr, none⟩) :
    tree.name ≠ .extended ∧ Expr.ofTree tree = .ok expr := by
  obtain ⟨name, tree_offset, tree_text, parts⟩ := tree
  by_cases extended : name = .extended
  · subst extended
    match parts with
    | [] | [_] => cases read
    | condition :: message :: _ =>
      obtain ⟨_, -, read⟩ := exists_of_bind_eq_ok read
      obtain ⟨_, -, read⟩ := exists_of_bind_eq_ok read
      cases read
  · refine ⟨extended, ?_⟩
    rw [Clause.ofTree] at read
    · obtain ⟨condition, read_condition, read⟩ := exists_of_bind_eq_ok read
      cases read
      exact read_condition
    all_goals simp [extended]

/-- A text that is parsed as a condition alone is an expression with blanks around it. -/
theorem expression_of_parse {source : String} {expr : Expr}
    (parsed : Clause.parse source = .ok ⟨expr, none⟩) :
    ∃ start tree stop last, grammar.Blanks free ⟨source.toList, 0⟩ start ∧
      grammar.Derivable (.phrase .expression) free start ⟨[tree], stop⟩ ∧
      tree.name = .expression ∧ Expr.ofTree tree = .ok expr ∧ grammar.Blanks free stop last ∧
      last.rest = [] := by
  obtain ⟨tree, rest, last, derives, read⟩ := derivation_of_parse parsed
  obtain ⟨start, inner, last, ending, -, to_start, in_inner, to_last, is_last, -, found_eq⟩ :=
    clause_parts derives
  injection found_eq with trees_eq _
  cases trees_eq
  rcases in_inner with extended | expression
  · obtain ⟨whole, -, rfl⟩ := derives_phrase.mp extended
    exact absurd rfl (ofTree_of_plain read).1
  · obtain ⟨whole, in_form, rfl⟩ := derives_phrase.mp expression
    exact ⟨start, _, _, last, to_start, expression, rfl, (ofTree_of_plain read).2, to_last,
      is_last⟩

/-- **An accepted text stands for its expression wherever it stands.**  A text that is parsed as a
condition alone is one token with blanks around it, and the token stands for the condition wherever a
name would end behind it. -/
theorem means_of_parse {source : String} {expr : Expr}
    (parsed : Clause.parse source = .ok ⟨expr, none⟩) :
    ∃ token, LaidOut [token] source.toList ∧ Means [token] expr := by
  obtain ⟨start, tree, stop, last, to_start, derives, named, read, to_last, is_last⟩ :=
    expression_of_parse parsed
  obtain ⟨token, spells⟩ : ∃ chars, start.Spells chars stop := (derives.advances ranking).1
  refine ⟨token, ?_, ?_⟩
  · obtain ⟨front, front_blank, here, -⟩ := to_start
    obtain ⟨back, back_blank, there, -⟩ := to_last
    rw [is_last, List.append_nil] at there
    exact ⟨front, back, front_blank, by rw [← there, ← spells.1]; exact here, back_blank⟩
  · rintro start' stop' ⟨place, _, blanks, spells', rfl⟩ ends
    obtain ⟨⟨trees, _⟩, derives', rfl, alike⟩ :=
      moves_of_derives id derives rfl token place _ spells spells' fun _ => ends
    match trees, derives', alike with
    | [tree'], derives', ⟨same, _⟩ =>
      refine ⟨place, tree', blanks, derives', ?_, ?_⟩
      · exact ofTree_eq_ok_of_alike (legible_of_derives derives).1 same read
      · rw [same.name_eq, named]
        exact ⟨rfl, rfl⟩

/-! ## Texts put together -/

/-- A text that is laid out as the tokens of a condition is parsed as the condition. -/
theorem parse_of_means {expr : Expr} {tokens : List (List Char)} {source : String}
    (means : Means tokens expr) (laid : LaidOut tokens source.toList) :
    Clause.parse source = .ok ⟨expr, none⟩ := by
  obtain ⟨tree, last, derives, read⟩ := derivation_of_means means laid
  rw [← String.ofList_toList (s := source)]
  exact parse_of_derivation derives read

/-- An accepted text in parentheses stands for the same expression. -/
theorem parse_inParentheses {source : String} {expr : Expr}
    (parsed : Clause.parse source = .ok ⟨expr, none⟩) :
    Clause.parse ("(" ++ source ++ ")") = .ok ⟨expr, none⟩ := by
  obtain ⟨token, laid, means⟩ := means_of_parse parsed
  have grouped : Means (inParentheses [token]) expr := fun start stop lays _ =>
    reads_of_operand (reads_inParentheses means lays)
  refine parse_of_means grouped ?_
  simp only [String.toList_append]
  exact ((laidOut_token ['(']).append laid).append (laidOut_token [')'])

/-- Accepted texts make up a clause with a message, which may end with a semicolon. -/
theorem parse_message {source message : String} {expr expr' : Expr} {final : String}
    (parsed : Clause.parse source = .ok ⟨expr, none⟩)
    (parsed' : Clause.parse message = .ok ⟨expr', none⟩) (final_eq : final = "" ∨ final = ";") :
    Clause.parse ("@:" ++ source ++ ";msg:" ++ message ++ final) = .ok ⟨expr, some expr'⟩ := by
  obtain ⟨token, laid, means⟩ := means_of_parse parsed
  obtain ⟨token', laid', means'⟩ := means_of_parse parsed'
  obtain ⟨last, last_eq, laid_last⟩ : ∃ last, (last = [] ∨ last = [[';']]) ∧
      LaidOut last final.toList := by
    rcases final_eq with rfl | rfl
    · exact ⟨[], .inl rfl, by simp [LaidOut]⟩
    · exact ⟨[[';']], .inr rfl, laidOut_token [';']⟩
  have separator := (laidOut_token [';']).append (laidOut_token "msg:".toList)
  have whole := (((laidOut_token "@:".toList).append laid).append separator).append
    (laid'.append laid_last)
  have same_text : ("@:" ++ source ++ ";msg:" ++ message ++ final).toList =
      "@:".toList ++ source.toList ++ ([';'] ++ "msg:".toList) ++
        (message.toList ++ final.toList) := by
    simp only [String.toList_append, List.append_assoc]
    rfl
  rw [← same_text] at whole
  obtain ⟨tree, last, derives, read⟩ := derivation_of_message means means' last_eq whole
  rw [← String.ofList_toList (s := _ ++ _)]
  exact parse_of_derivation derives read

/-! ## Calls -/

/-- Accepted texts with a comma before each stand for further arguments. -/
theorem moreArgsMean_of_parse {args : List (String × Expr)}
    (parsed : ∀ arg ∈ args, Clause.parse arg.1 = .ok ⟨arg.2, none⟩) :
    ∃ tokens, LaidOut tokens (args.flatMap fun arg => ',' :: arg.1.toList) ∧
      MoreArgsMean tokens (args.map Prod.snd) := by
  induction args with
  | nil => exact ⟨[], by simp [LaidOut], moreArgsMean_nil⟩
  | cons arg rest ih =>
    obtain ⟨token, laid, means⟩ := means_of_parse (parsed arg List.mem_cons_self)
    obtain ⟨tokens, laid_rest, mean⟩ := ih fun other listed =>
      parsed other (List.mem_cons_of_mem _ listed)
    exact ⟨[','] :: ([token] ++ tokens),
      (laidOut_token [',']).append (laid.append laid_rest), moreArgsMean_cons means mean⟩

/-- Texts with commas between are the first, and the others with a comma before each. -/
theorem toList_intercalate_cons (first : String × Expr) (rest : List (String × Expr)) :
    (",".intercalate ((first :: rest).map Prod.fst)).toList =
      first.1.toList ++ rest.flatMap fun arg => ',' :: arg.1.toList := by
  induction rest generalizing first with
  | nil => simp
  | cons next rest ih =>
    rw [List.map_cons, List.map_cons, String.intercalate_cons_cons, String.toList_append,
      String.toList_append, ← List.map_cons, ih next, List.flatMap_cons]
    simp

/-- Accepted texts with commas between stand for the arguments of a call. -/
theorem argsMean_of_parse {args : List (String × Expr)}
    (parsed : ∀ arg ∈ args, Clause.parse arg.1 = .ok ⟨arg.2, none⟩) :
    ∃ tokens, LaidOut tokens (",".intercalate (args.map Prod.fst)).toList ∧
      ArgsMean tokens (args.map Prod.snd) := by
  cases args with
  | nil => exact ⟨[], by simp [LaidOut], argsMean_nil⟩
  | cons arg rest =>
    obtain ⟨token, laid, means⟩ := means_of_parse (parsed arg List.mem_cons_self)
    obtain ⟨tokens, laid_rest, mean⟩ := moreArgsMean_of_parse fun other listed =>
      parsed other (List.mem_cons_of_mem _ listed)
    refine ⟨[token] ++ tokens, ?_, argsMean_cons means mean⟩
    rw [toList_intercalate_cons]
    exact laid.append laid_rest

theorem parse_call {name : String} (is_identifier : isIdentifier name.toList = true)
    {args : List (String × Expr)}
    (parsed : ∀ arg ∈ args, Clause.parse arg.1 = .ok ⟨arg.2, none⟩) :
    Clause.parse (name ++ "(" ++ ",".intercalate (args.map Prod.fst) ++ ")") =
      .ok ⟨.call name (args.map Prod.snd), none⟩ := by
  obtain ⟨tokens, laid, mean⟩ := argsMean_of_parse parsed
  refine parse_of_means (means_call is_identifier mean) ?_
  simp only [String.toList_append]
  exact (((laidOut_token name.toList).append (laidOut_token ['('])).append laid).append
    (laidOut_token [')'])

end Phrase

namespace Clause

/-- **Annotations are put together as texts.**  For every two texts that are parsed as conditions
alone, whatever is in them, the text that makes the one a rule and the other its message is parsed as
the two trees, with a last semicolon and without; a text in parentheses is parsed as the tree of the
text; and for every identifier and every list of such texts, the call that is written with commas
between them is parsed as the call on their trees, in order. -/
theorem parse_composed {source message : String} {condition expr : Expr}
    (parsed : Clause.parse source = .ok ⟨condition, none⟩)
    (message_parsed : Clause.parse message = .ok ⟨expr, none⟩) :
    Clause.parse ("@:" ++ source ++ ";msg:" ++ message) = .ok ⟨condition, some expr⟩ ∧
      Clause.parse ("@:" ++ source ++ ";msg:" ++ message ++ ";") = .ok ⟨condition, some expr⟩ ∧
      Clause.parse ("(" ++ source ++ ")") = .ok ⟨condition, none⟩ ∧
      ∀ name : String, isIdentifier name.toList = true → ∀ args : List (String × Expr),
        (∀ arg ∈ args, Clause.parse arg.1 = .ok ⟨arg.2, none⟩) →
        Clause.parse (name ++ "(" ++ ",".intercalate (args.map Prod.fst) ++ ")") =
          .ok ⟨.call name (args.map Prod.snd), none⟩ := by
  refine ⟨?_, Phrase.parse_message parsed message_parsed (.inr rfl),
    Phrase.parse_inParentheses parsed,
    fun name is_identifier args args_parsed => Phrase.parse_call is_identifier args_parsed⟩
  have bare := Phrase.parse_message parsed message_parsed (.inl rfl)
  rwa [String.append_empty] at bare

/-- A comparison with a text that has the marks of a message, a parenthesis and a quote in it. -/
def quotedMarks : Expr :=
  .comparison .eq (.unary .neg (.sibling [.field "a", .index 0, .field "b"]))
    (.literal (.str ";msg:(\"@:"))

theorem parse_composed_quotedMarks :
    Clause.parse " -(a[0].b) $ == ';msg:(\"@:' " = .ok ⟨quotedMarks, none⟩ ∧
      Clause.parse "nil\t" = .ok ⟨.literal .nil, none⟩ ∧
      Clause.parse "@: -(a[0].b) $ == ';msg:(\"@:' ;msg:nil\t" =
        .ok ⟨quotedMarks, some (.literal .nil)⟩ ∧
      Clause.parse "nil(nil\t, -(a[0].b) $ == ';msg:(\"@:' )" =
        .ok ⟨.call "nil" [.literal .nil, quotedMarks], none⟩ := by
  have first : Clause.parse " -(a[0].b) $ == ';msg:(\"@:' " = .ok ⟨quotedMarks, none⟩ := by
    decide +kernel
  have second : Clause.parse "nil\t" = .ok ⟨.literal .nil, none⟩ := by decide +kernel
  have args_parsed : ∀ arg ∈ [("nil\t", Expr.literal .nil),
      (" -(a[0].b) $ == ';msg:(\"@:' ", quotedMarks)],
      Clause.parse arg.1 = .ok ⟨arg.2, none⟩ := by
    simp only [List.forall_mem_cons]
    exact ⟨second, first, by simp⟩
  obtain ⟨bare, -, -, call⟩ := parse_composed first second
  have called := call "nil" (by decide +kernel) _ args_parsed
  have text_eq : "@:" ++ " -(a[0].b) $ == ';msg:(\"@:' " ++ ";msg:" ++ "nil\t" =
      "@: -(a[0].b) $ == ';msg:(\"@:' ;msg:nil\t" := by decide +kernel
  have call_eq : "nil" ++ "(" ++ ",".intercalate ["nil\t", " -(a[0].b) $ == ';msg:(\"@:' "] ++ ")" =
      "nil(nil\t, -(a[0].b) $ == ';msg:(\"@:' )" := by decide +kernel
  rw [text_eq] at bare
  rw [List.map_cons, List.map_cons, List.map_nil, call_eq] at called
  exact ⟨first, second, bare, called⟩

end Clause

end Proviso
