/-
  SqlKit/Proofs/Postgres/Reading.lean
  ===================================
  **An expression is known by its text and values.**

  A reader goes through the lexemes of an expression once, from left to right.
  It keeps what it has read last and a stack of what is still open: parentheses,
  calls with their arguments so far, and operators whose right side is to come.
  An operator waits for the parenthesis around it, since neither of its sides is
  another operator without parentheses; a membership or a cast does not.

  Behind an operand the reader holds that operand, whatever lies on its stack
  (`ReadsOperand`), so expressions are read back by induction over their form
  (`reads_expression`). Two expressions with one text and one list of values are
  therefore the same (`render_injective`).
-/
import SqlKit.Proofs.Postgres.Expression

namespace SqlKit.Postgres

/-! ## 1. The reader -/

/-- Something open that an operand is to complete. -/
inductive Frame where
  | group
  | call (name : String) (args : List Node)
  | right (op : Operator) (left : Node)

/-- What has been read last. -/
inductive Focus where
  /-- Nothing: an operand is to come. -/
  | start
  /-- A minus sign, whose digits are to come. -/
  | negative
  | operand (node : Node)
  /-- A word, which is an operand unless a call begins with it. -/
  | word (s : String)
  | dotted (table : String)
  | casting (inner : Node)
  /-- An operand, a blank and the beginning of what is said about the operand. -/
  | operator (left : Node) (lexemes : List Lexeme)
  | set (element : Node) (items : List Value)
  | test (left : Node) (op : Operator)

structure Reader where
  focus : Focus := .start
  frames : List Frame := []

def digits (s : String) : Int :=
  Nat.ofDigitChars 10 s.toList 0

def literal (s : String) : Node :=
  if s.toList.all Char.isDigit then .of (.integer (Int64.ofInt (digits s))) else .of .null

/-- The operand read last, if there is one. -/
def Focus.operand? : Focus → Option Node
  | .operand node => some node
  | .word s => some (literal s)
  | _ => none

/-- An operand completes the operator before it. -/
def reduce (node : Node) : List Frame → Node × List Frame
  | .right op left :: frames => (.of (.binary op left node), frames)
  | frames => (node, frames)

def operator? : List Lexeme → Option Operator
  | [.sign '+'] => some .plus
  | [.sign '-'] => some .minus
  | [.sign '*'] => some .times
  | [.sign '/'] => some .divide
  | [.sign '='] => some .equal
  | [.sign '!', .sign '='] => some .notEqual
  | [.sign '<'] => some .less
  | [.sign '<', .sign '='] => some .lessEqual
  | [.sign '>'] => some .greater
  | [.sign '>', .sign '='] => some .greaterEqual
  | [.word "AND"] => some .and
  | [.word "OR"] => some .or
  | _ => none

namespace Reader

/-- Where an operand is to come. The blank is the one behind a comma. -/
def startStep (frames : List Frame) : Lexeme → Option Reader
  | .name s => some ⟨.operand (.of (.identifier s)), frames⟩
  | .word s => some ⟨.word s, frames⟩
  | .value (.text s) => some ⟨.operand (.of (.string s)), frames⟩
  | .sign '*' => some ⟨.operand (.of (.identifier "*")), frames⟩
  | .sign '-' => some ⟨.negative, frames⟩
  | .sign '(' => some ⟨.start, .group :: frames⟩
  | .sign ' ' => some ⟨.start, frames⟩
  | .sign ')' =>
    match frames with
    | .call name args :: rest => some ⟨.operand (.of (.call name args)), rest⟩
    | _ => none
  | _ => none

/-- Behind an operand. -/
def operandStep (node : Node) (frames : List Frame) : Lexeme → Option Reader
  | .sign ' ' => some ⟨.operator node [], frames⟩
  | .sign ':' => some ⟨.casting node, frames⟩
  | .sign '.' =>
    match node.form with
    | .identifier table => some ⟨.dotted table, frames⟩
    | _ => none
  | .sign ',' =>
    match frames with
    | .call name args :: rest => some ⟨.start, .call name (args ++ [node]) :: rest⟩
    | _ => none
  | .sign ')' =>
    match reduce node frames with
    | (inner, .group :: rest) => some ⟨.operand inner, rest⟩
    | (inner, .call name args :: rest) => some ⟨.operand (.of (.call name (args ++ [inner]))), rest⟩
    | _ => none
  | _ => none

/-- Behind an operand and a blank, up to the next blank. -/
def operatorStep (left : Node) (lexemes : List Lexeme) (frames : List Frame) :
    Lexeme → Option Reader
  | .sign ' ' =>
    match lexemes with
    | [.word "IN"] => some ⟨.set left [], frames⟩
    | [.word "IS"] => some ⟨.test left .equal, frames⟩
    | _ => (operator? lexemes).map fun op => ⟨.start, .right op left :: frames⟩
  | x => some ⟨.operator left (lexemes ++ [x]), frames⟩

def setStep (element : Node) (items : List Value) (frames : List Frame) : Lexeme → Option Reader
  | .value v => some ⟨.set element (items ++ [v]), frames⟩
  | .sign ')' => some ⟨.operand (.of (.membership element (.of (.list items)))), frames⟩
  | _ => some ⟨.set element items, frames⟩

def testStep (left : Node) (op : Operator) (frames : List Frame) : Lexeme → Option Reader
  | .word "NOT" => some ⟨.test left .notEqual, frames⟩
  | .word "NULL" => some ⟨.operand (.of (.binary op left (.of .null))), frames⟩
  | _ => some ⟨.test left op, frames⟩

/-- Behind a word, which the parenthesis of a call may follow. -/
def wordStep (s : String) (frames : List Frame) : Lexeme → Option Reader
  | .sign '(' => some ⟨.start, .call s [] :: frames⟩
  | x => operandStep (literal s) frames x

def negativeStep (frames : List Frame) : Lexeme → Option Reader
  | .word s => some ⟨.operand (.of (.integer (Int64.ofInt (-digits s)))), frames⟩
  | _ => none

def dottedStep (table : String) (frames : List Frame) : Lexeme → Option Reader
  | .name s => some ⟨.operand (.of (.column table s)), frames⟩
  | _ => none

def castingStep (inner : Node) (frames : List Frame) : Lexeme → Option Reader
  | .word type => some ⟨.operand (.of (.cast inner type)), frames⟩
  | _ => some ⟨.casting inner, frames⟩

def step (x : Lexeme) (reader : Reader) : Option Reader :=
  match reader.focus with
  | .start => startStep reader.frames x
  | .negative => negativeStep reader.frames x
  | .operand node => operandStep node reader.frames x
  | .word s => wordStep s reader.frames x
  | .dotted table => dottedStep table reader.frames x
  | .casting inner => castingStep inner reader.frames x
  | .operator left lexemes => operatorStep left lexemes reader.frames x
  | .set element items => setStep element items reader.frames x
  | .test left op => testStep left op reader.frames x

def run : List Lexeme → Reader → Option Reader
  | [], reader => some reader
  | x :: rest, reader => (step x reader).bind (run rest)

/-- What has been read, if nothing is left open. -/
def result? (reader : Reader) : Option Node :=
  match reader.focus.operand?.map (reduce · reader.frames) with
  | some (node, []) => some node
  | _ => none

theorem run_cons {x : Lexeme} {reader next : Reader} (h : step x reader = some next)
    (rest : List Lexeme) : run (x :: rest) reader = run rest next := by
  rw [run, h, Option.bind_some]

theorem run_append (xs ys : List Lexeme) (reader : Reader) :
    run (xs ++ ys) reader = (run xs reader).bind (run ys) := by
  induction xs generalizing reader with
  | nil => rfl
  | cons x xs ih =>
    rw [List.cons_append, run, run]
    cases step x reader with
    | none => rfl
    | some next => exact ih next

theorem run_append_of_eq {xs : List Lexeme} {reader next : Reader} (h : run xs reader = some next)
    (ys : List Lexeme) : run (xs ++ ys) reader = run ys next := by
  rw [run_append, h, Option.bind_some]

/-- Behind an operand it does not matter what the operand was read as. -/
theorem step_sign {focus : Focus} {node : Node} (h : focus.operand? = some node) {c : Char}
    (hc : c ≠ '(') (frames : List Frame) :
    step (.sign c) ⟨focus, frames⟩ = operandStep node frames (.sign c) := by
  cases focus with
  | operand other =>
    obtain rfl := Option.some.inj h
    rfl
  | word s =>
    obtain rfl := Option.some.inj h
    simp [step, wordStep, hc]
  | _ => cases h

end Reader

/-! ## 2. Reading an operand -/

open Reader

/-- Frames that do not wait for the right side of an operator. -/
def Settled (frames : List Frame) : Prop :=
  ∀ node, reduce node frames = (node, frames)

/-- A node that is read as an operand wherever an operand is to come. -/
def ReadsOperand (node : Node) : Prop :=
  ∀ frames, ∃ focus, run (operandLexemes node) ⟨.start, frames⟩ = some ⟨focus, frames⟩ ∧
    focus.operand? = some node

/-- A node that is read as a whole, with its last operand completing it. -/
def ReadsWhole (node : Node) : Prop :=
  ∀ frames, Settled frames → ∃ focus last frames',
    run (lexemes node) ⟨.start, frames⟩ = some ⟨focus, frames'⟩ ∧
      focus.operand? = some last ∧ reduce last frames' = (node, frames)

theorem ReadsOperand.whole {node : Node} (h : ReadsOperand node)
    (hsimple : node.isCompound = false) : ReadsWhole node := by
  intro frames hsettled
  obtain ⟨focus, hrun, hfocus⟩ := h frames
  rw [operandLexemes, hsimple] at hrun
  exact ⟨focus, node, frames, hrun, hfocus, hsettled node⟩

/-- Parentheses around a whole make it an operand. -/
theorem ReadsWhole.enclosed {node : Node} (h : ReadsWhole node) (rest : List Lexeme)
    (frames : List Frame) :
    run (.sign '(' :: (lexemes node ++ .sign ')' :: rest)) ⟨.start, frames⟩ =
      run rest ⟨.operand node, frames⟩ := by
  obtain ⟨focus, last, frames', hrun, hlast, hreduce⟩ := h (.group :: frames) fun _ => rfl
  have hclose : step (.sign ')') ⟨focus, frames'⟩ = some ⟨.operand node, frames⟩ := by
    rw [step_sign hlast (by decide), operandStep, hreduce]
  have hopen : step (.sign '(') ⟨.start, frames⟩ = some ⟨.start, .group :: frames⟩ := rfl
  rw [run_cons hopen, run_append_of_eq hrun, run_cons hclose]

theorem ReadsWhole.operand {node : Node} (h : ReadsWhole node)
    (hcompound : node.isCompound = true) : ReadsOperand node := by
  intro frames
  rw [operandLexemes, hcompound]
  exact ⟨.operand node, h.enclosed [] frames, rfl⟩

/-- What follows an operand and a blank is read as what is said about it. -/
theorem ReadsOperand.run_blank {node : Node} (h : ReadsOperand node) (rest : List Lexeme)
    (frames : List Frame) :
    run (operandLexemes node ++ .sign ' ' :: rest) ⟨.start, frames⟩ =
      run rest ⟨.operator node [], frames⟩ := by
  obtain ⟨focus, hrun, hfocus⟩ := h frames
  have hblank : step (.sign ' ') ⟨focus, frames⟩ = some ⟨.operator node [], frames⟩ :=
    step_sign hfocus (by decide) frames
  rw [run_append_of_eq hrun, run_cons hblank]

/-! ## 3. Reading what stands around operands -/

theorem run_operator (op : Operator) (left : Node) (rest : List Lexeme) (frames : List Frame) :
    run (operatorLexemes op ++ .sign ' ' :: rest) ⟨.operator left [], frames⟩ =
      run rest ⟨.start, .right op left :: frames⟩ := by
  cases op <;> rfl

theorem run_test {op : Operator} {test : List Lexeme} (htest : testLexemes? op = some test)
    (left : Node) (frames : List Frame) :
    run test ⟨.operator left [], frames⟩ =
      some ⟨.operand (.of (.binary op left (.of .null))), frames⟩ := by
  cases op with
  | equal =>
    obtain rfl := Option.some.inj htest
    rfl
  | notEqual =>
    obtain rfl := Option.some.inj htest
    rfl
  | _ => cases htest

theorem run_items (element : Node) (items done : List Value) (rest : List Lexeme)
    (frames : List Frame) :
    run (itemLexemes items ++ rest) ⟨.set element done, frames⟩ =
      run rest ⟨.set element (done ++ items), frames⟩ := by
  cases items with
  | nil =>
    rw [List.append_nil]
    rfl
  | cons item items =>
    rw [itemLexemes]
    · induction items generalizing item done with
      | nil => rfl
      | cons next items ih =>
        have hrest := ih (done ++ [item]) next
        rw [List.append_assoc] at hrest
        exact hrest
    · exact List.cons_ne_nil _ _

theorem run_arguments {args : List Node} (hargs : ∀ arg ∈ args, ReadsOperand arg) (name : String)
    (done : List Node) (frames : List Frame) :
    run (argumentLexemes (args.map operandLexemes) ++ [.sign ')'])
        ⟨.start, .call name done :: frames⟩ =
      some ⟨.operand (.of (.call name (done ++ args))), frames⟩ := by
  induction args generalizing done with
  | nil =>
    rw [List.append_nil]
    rfl
  | cons arg rest ih =>
    have hrest := fun next hnext => hargs next (List.mem_cons_of_mem arg hnext)
    obtain ⟨focus, hrun, hfocus⟩ := hargs arg List.mem_cons_self (.call name done :: frames)
    cases rest with
    | nil =>
      have hclose : step (.sign ')') ⟨focus, .call name done :: frames⟩ =
          some ⟨.operand (.of (.call name (done ++ [arg]))), frames⟩ :=
        step_sign hfocus (by decide) _
      have hsingle : argumentLexemes ([arg].map operandLexemes) = operandLexemes arg := by
        simp [argumentLexemes]
      rw [hsingle, run_append_of_eq hrun, run_cons hclose, run]
    | cons next rest =>
      have hcomma : step (.sign ',') ⟨focus, .call name done :: frames⟩ =
          some ⟨.start, .call name (done ++ [arg]) :: frames⟩ :=
        step_sign hfocus (by decide) _
      have hmore : argumentLexemes ((arg :: next :: rest).map operandLexemes) =
          operandLexemes arg ++ .sign ',' :: .sign ' ' ::
            argumentLexemes ((next :: rest).map operandLexemes) := rfl
      have hdone := ih hrest (done ++ [arg])
      rw [List.append_assoc] at hdone
      rw [hmore, List.append_assoc, run_append_of_eq hrun, List.cons_append, run_cons hcomma]
      exact hdone

theorem literal_toString (n : Nat) : literal (toString n) = .of (.integer (Int64.ofInt n)) := by
  have hdigits : (toString n).toList.all Char.isDigit = true := by
    rw [toList_toString, List.all_eq_true]
    exact fun c hc => Nat.isDigit_of_mem_toDigits (by decide) (by decide) hc
  rw [literal, if_pos hdigits, digits, toList_toString, Nat.ofDigitChars_ten_toDigits]

theorem readsOperand_integer (value : Int64) : ReadsOperand (.of (.integer value)) := by
  intro frames
  have hvalue : Int64.ofInt value.toInt = value := Int64.ofInt_toInt value
  change ∃ focus, run (integerLexemes value.toInt) _ = _ ∧ _
  rcases hint : value.toInt with n | n <;> rw [hint] at hvalue
  · refine ⟨.word (toString n), rfl, ?_⟩
    rw [Focus.operand?, literal_toString]
    exact congrArg (fun value : Int64 => some (Node.of (.integer value))) hvalue
  · refine ⟨.operand (.of (.integer (Int64.ofInt (-digits (toString (n + 1)))))), rfl, ?_⟩
    rw [Focus.operand?, digits, toList_toString, Nat.ofDigitChars_ten_toDigits]
    exact congrArg (fun value : Int64 => some (Node.of (.integer value))) hvalue

theorem readsOperand_identifier (name : String) : ReadsOperand (.of (.identifier name)) := by
  intro frames
  refine ⟨.operand (.of (.identifier name)), ?_, rfl⟩
  change run [if name = "*" then .sign '*' else .name name] _ = _
  by_cases hstar : name = "*"
  · subst hstar
    rfl
  · rw [if_neg hstar]
    rfl

/-! ## 4. Reading an expression -/

theorem readsWhole_plain {op : Operator} {left right : Node}
    (h : testLexemes? op = none ∨ right.kind ≠ .null) (hleft : ReadsOperand left)
    (hright : ReadsOperand right) : ReadsWhole (.of (.binary op left right)) := by
  intro frames _
  obtain ⟨focus, hrun, hfocus⟩ := hright (.right op left :: frames)
  refine ⟨focus, right, .right op left :: frames, ?_, hfocus, rfl⟩
  rw [lexemes_plain h, hleft.run_blank, run_operator, hrun]

theorem readsWhole_test {op : Operator} {left : Node} {test : List Lexeme}
    (htest : testLexemes? op = some test) (hleft : ReadsOperand left) :
    ReadsWhole (.of (.binary op left (.of .null))) := by
  intro frames hsettled
  refine ⟨.operand (.of (.binary op left (.of .null))), _, frames, ?_, rfl, hsettled _⟩
  rw [lexemes_test htest, hleft.run_blank, run_test htest]

/-- **The reader reads every expression**, as an operand and as a whole. -/
theorem reads_expression {node : Node} (h : node.IsExpression) :
    ReadsOperand node ∧ ReadsWhole node := by
  -- all but operations are operands as they are
  have simple {node : Node} (hnode : ReadsOperand node) (hsimple : node.isCompound = false) :
      ReadsOperand node ∧ ReadsWhole node := ⟨hnode, hnode.whole hsimple⟩
  induction h with
  | identifier name => exact simple (readsOperand_identifier name) rfl
  | column table name => exact simple (fun frames => ⟨_, rfl, rfl⟩) rfl
  | integer value => exact simple (readsOperand_integer value) rfl
  | string s => exact simple (fun frames => ⟨_, rfl, rfl⟩) rfl
  | null => exact simple (fun frames => ⟨.word "NULL", rfl, rfl⟩) rfl
  | @binary op left right _ hright ihleft ihright =>
    have hwhole : ReadsWhole (.of (.binary op left right)) := by
      rcases binary_cases op hright with ⟨test, htest, rfl⟩ | hplain
      · exact readsWhole_test htest ihleft.1
      · exact readsWhole_plain hplain ihleft.1 ihright.1
    exact ⟨hwhole.operand rfl, hwhole⟩
  | @membership element items _ _ ih =>
    refine simple (fun frames => ?_) rfl
    refine ⟨.operand (.of (.membership element (.of (.list items)))), ?_, rfl⟩
    change run (lexemes _) _ = _
    rw [lexemes_membership, ih.1.run_blank]
    exact run_items element items [] [.sign ')'] frames
  | @cast inner type _ _ ih =>
    refine simple (fun frames => ?_) rfl
    refine ⟨.operand (.of (.cast inner type)), ?_, rfl⟩
    exact ih.2.enclosed [.sign ':', .sign ':', .word type] frames
  | @call name args _ _ ih =>
    refine simple (fun frames => ?_) rfl
    refine ⟨.operand (.of (.call name args)), ?_, rfl⟩
    change run (lexemes _) _ = _
    rw [lexemes_call]
    exact run_arguments (fun arg harg => (ih arg harg).1) name [] frames

/-! ## 5. Reading a rendered expression -/

/-- The expression that has been rendered to a text and values. -/
def readBack (r : Rendered) : Option Node :=
  (run (Lexeme.read r.sql.toList r.values) {}).bind Reader.result?

/-- **An expression is rendered, and can be read back.** -/
theorem readBack_render {options : Options} {node : Node} (hquote : options.quote = true)
    (h : node.IsExpression) : ∃ r, render options node {} = .ok r ∧ readBack r = some node := by
  obtain ⟨r, hrender, hsql, hvalues⟩ := render_expression hquote h
  obtain ⟨focus, last, frames, hrun, hlast, hreduce⟩ := (reads_expression h).2 [] fun _ => rfl
  refine ⟨r, hrender, ?_⟩
  rw [readBack, hsql, hvalues, Lexeme.read_written (legible_lexemes h), hrun, Option.bind_some,
    Reader.result?, hlast, Option.map_some, hreduce]

/-- **No two expressions have the same text and values** where names are quoted.
    Parentheses lose no grouping, and no name can pass for anything else. -/
theorem render_injective (options : Options) (hquote : options.quote = true) {node node' : Node}
    (h : node.IsExpression) (h' : node'.IsExpression) :
    ∃ r r', render options node {} = .ok r ∧ render options node' {} = .ok r' ∧
      (r.sql = r'.sql → r.values = r'.values → node = node') := by
  obtain ⟨⟨sql, values⟩, hrender, hread⟩ := readBack_render hquote h
  obtain ⟨⟨sql', values'⟩, hrender', hread'⟩ := readBack_render hquote h'
  refine ⟨_, _, hrender, hrender', ?_⟩
  rintro rfl rfl
  rw [hread] at hread'
  exact Option.some.inj hread'

/-- A sum that is in a list is not the sum of which one side is in it. -/
theorem render_injective_membership :
    let options : Options := { quote := true }
    let x : Node := .of (.identifier "x")
    let y : Node := .of (.column "t" "y = ")
    let items : Node := .of (.list [.int16 1, .null])
    let node : Node := .of (.membership (.of (.binary .plus x y)) items)
    let node' : Node := .of (.binary .plus x (.of (.membership y items)))
    node.IsExpression ∧ node'.IsExpression ∧
      ∃ r r', render options node {} = .ok r ∧ render options node' {} = .ok r' ∧
        r.values = r'.values ∧ r.sql ≠ r'.sql := by
  intro options x y items node node'
  have hx : x.IsExpression := .identifier "x"
  have hy : y.IsExpression := .column "t" "y = "
  have h : node.IsExpression := .membership (.binary .plus hx hy) rfl
  have h' : node'.IsExpression := .binary .plus hx (.membership hy rfl)
  obtain ⟨r, r', hrender, hrender', hsame⟩ := render_injective options rfl h h'
  have hvalues : r.values = r'.values := by
    obtain rfl := Except.ok.inj hrender
    obtain rfl := Except.ok.inj hrender'
    rfl
  refine ⟨h, h', r, r', hrender, hrender', hvalues, fun hsql => ?_⟩
  exact absurd (congrArg Node.kind (hsame hsql hvalues)) NodeKind.noConfusion

end SqlKit.Postgres
