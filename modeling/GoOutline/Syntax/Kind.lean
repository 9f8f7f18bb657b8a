import GoOutline.Text.Blank

/-!
# Kinds of syntax nodes

Every node of a syntax tree has a kind. Named kinds are the constructs of the language; the kind
`token` covers keywords and punctuation, told apart by their spelling. A node may also play a role
in its parent, such as being the name of a declaration.

## Main definitions

* `Kind`: the kinds
* `Kind.isNamed`: everything but bare tokens
* `Kind.name`: what the kinds are called
* `Kind.isTerminator`: the bare tokens that end statements
* `Role`: what a child is to its parent
-/

namespace GoOutline.Syntax

/-- The kind of a syntax node. -/
inductive Kind where
  -- files and declarations
  | sourceFile | packageClause | importDeclaration | importSpec | importSpecList | dot
  | blankIdentifier | constDeclaration | constSpec | varDeclaration | varSpec | varSpecList
  | functionDeclaration | methodDeclaration | typeDeclaration | typeSpec | typeAlias
  -- parameters
  | typeParameterList | typeParameterDeclaration | typeConstraint | parameterList
  | parameterDeclaration | variadicParameterDeclaration
  -- types
  | parenthesizedType | genericType | typeArguments | qualifiedType | pointerType | arrayType
  | implicitLengthArrayType | sliceType | structType | fieldDeclarationList | fieldDeclaration
  | interfaceType | methodElem | typeElem | mapType | channelType | functionType | negatedType
  -- statements
  | block | emptyStatement | expressionStatement | sendStatement | receiveStatement | incStatement
  | decStatement | assignmentStatement | shortVarDeclaration | labeledStatement
  | fallthroughStatement | breakStatement | continueStatement | gotoStatement | returnStatement
  | goStatement | deferStatement | ifStatement | forStatement | forClause | rangeClause
  | expressionSwitchStatement | expressionCase | defaultCase | typeSwitchStatement | typeCase
  | selectStatement | communicationCase | expressionList
  -- expressions
  | parenthesizedExpression | callExpression | argumentList | variadicArgument
  | selectorExpression | indexExpression | sliceExpression | typeAssertionExpression
  | typeConversionExpression | typeInstantiationExpression | compositeLiteral | literalValue
  | literalElement | keyedElement | funcLiteral | unaryExpression | binaryExpression
  -- names and literals
  | identifier | typeIdentifier | fieldIdentifier | packageIdentifier | labelName
  | rawStringLiteral | interpretedStringLiteral | intLiteral | floatLiteral | imaginaryLiteral
  | runeLiteral | nilLiteral | trueLiteral | falseLiteral | iotaLiteral
  -- what may stand anywhere
  | comment
  /-- A stretch of source that fits nowhere. -/
  | error
  /-- A keyword or a mark of punctuation. -/
  | token (spelling : String)
  deriving DecidableEq, Repr, Inhabited

namespace Kind

/-- The kind is a construct of the language and not a bare token. -/
def isNamed : Kind → Bool
  | .token _ => false
  | _ => true

/-- What the kind is called; a token is called by its spelling. -/
def name : Kind → String
  | .sourceFile => "source_file" | .packageClause => "package_clause"
  | .importDeclaration => "import_declaration" | .importSpec => "import_spec"
  | .importSpecList => "import_spec_list" | .dot => "dot" | .blankIdentifier => "blank_identifier"
  | .constDeclaration => "const_declaration" | .constSpec => "const_spec"
  | .varDeclaration => "var_declaration" | .varSpec => "var_spec" | .varSpecList => "var_spec_list"
  | .functionDeclaration => "function_declaration" | .methodDeclaration => "method_declaration"
  | .typeDeclaration => "type_declaration" | .typeSpec => "type_spec" | .typeAlias => "type_alias"
  | .typeParameterList => "type_parameter_list"
  | .typeParameterDeclaration => "type_parameter_declaration" | .typeConstraint => "type_constraint"
  | .parameterList => "parameter_list" | .parameterDeclaration => "parameter_declaration"
  | .variadicParameterDeclaration => "variadic_parameter_declaration"
  | .parenthesizedType => "parenthesized_type" | .genericType => "generic_type"
  | .typeArguments => "type_arguments" | .qualifiedType => "qualified_type"
  | .pointerType => "pointer_type" | .arrayType => "array_type"
  | .implicitLengthArrayType => "implicit_length_array_type" | .sliceType => "slice_type"
  | .structType => "struct_type" | .fieldDeclarationList => "field_declaration_list"
  | .fieldDeclaration => "field_declaration" | .interfaceType => "interface_type"
  | .methodElem => "method_elem" | .typeElem => "type_elem" | .mapType => "map_type"
  | .channelType => "channel_type" | .functionType => "function_type"
  | .negatedType => "negated_type"
  | .block => "block" | .emptyStatement => "empty_statement"
  | .expressionStatement => "expression_statement" | .sendStatement => "send_statement"
  | .receiveStatement => "receive_statement" | .incStatement => "inc_statement"
  | .decStatement => "dec_statement" | .assignmentStatement => "assignment_statement"
  | .shortVarDeclaration => "short_var_declaration" | .labeledStatement => "labeled_statement"
  | .fallthroughStatement => "fallthrough_statement" | .breakStatement => "break_statement"
  | .continueStatement => "continue_statement" | .gotoStatement => "goto_statement"
  | .returnStatement => "return_statement" | .goStatement => "go_statement"
  | .deferStatement => "defer_statement" | .ifStatement => "if_statement"
  | .forStatement => "for_statement" | .forClause => "for_clause" | .rangeClause => "range_clause"
  | .expressionSwitchStatement => "expression_switch_statement"
  | .expressionCase => "expression_case" | .defaultCase => "default_case"
  | .typeSwitchStatement => "type_switch_statement" | .typeCase => "type_case"
  | .selectStatement => "select_statement" | .communicationCase => "communication_case"
  | .expressionList => "expression_list"
  | .parenthesizedExpression => "parenthesized_expression" | .callExpression => "call_expression"
  | .argumentList => "argument_list" | .variadicArgument => "variadic_argument"
  | .selectorExpression => "selector_expression" | .indexExpression => "index_expression"
  | .sliceExpression => "slice_expression" | .typeAssertionExpression => "type_assertion_expression"
  | .typeConversionExpression => "type_conversion_expression"
  | .typeInstantiationExpression => "type_instantiation_expression"
  | .compositeLiteral => "composite_literal" | .literalValue => "literal_value"
  | .literalElement => "literal_element" | .keyedElement => "keyed_element"
  | .funcLiteral => "func_literal" | .unaryExpression => "unary_expression"
  | .binaryExpression => "binary_expression"
  | .identifier => "identifier" | .typeIdentifier => "type_identifier"
  | .fieldIdentifier => "field_identifier" | .packageIdentifier => "package_identifier"
  | .labelName => "label_name" | .rawStringLiteral => "raw_string_literal"
  | .interpretedStringLiteral => "interpreted_string_literal" | .intLiteral => "int_literal"
  | .floatLiteral => "float_literal" | .imaginaryLiteral => "imaginary_literal"
  | .runeLiteral => "rune_literal" | .nilLiteral => "nil" | .trueLiteral => "true"
  | .falseLiteral => "false" | .iotaLiteral => "iota"
  | .comment => "comment" | .error => "ERROR" | .token spelling => spelling

/-- The token ends a statement: without the blanks around it, its spelling is a semicolon or nothing
at all. The line feed is such a token, and so is the character zero, which has no spelling. -/
def isTerminator : Kind → Bool
  | .token spelling =>
    let rest := Text.Blank.trim spelling.toList
    rest.isEmpty || rest == [';']
  | _ => false

end Kind

/-- What a child is to its parent. -/
inductive Role where
  | name | package | path | type | receiver | parameters | result | body | tag
  | typeParameters | typeArguments | element | length | key | value
  deriving DecidableEq, Repr, Inhabited

end GoOutline.Syntax
