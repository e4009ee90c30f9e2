import LiveUnits.Shell.Source

/-!
# The grammar of the shell

Characters become words and operators, and these become commands.  A reserved word counts as one only
where a command may begin, and an alias only where the name of a command may stand; a list of commands
ends at a word that closes what is around it.  Words hold commands in turn.  A script is read one
complete command at a time, so that what stands before a mistake is carried out.  The recursion is
bounded by a number that exceeds the depth of any derivation.
-/

namespace LiveUnits.Shell

/-- What is around a piece of a word. -/
inductive Context where
  /-- Nothing. -/
  | bare
  /-- Nothing, and the word is a mark that ends a text. -/
  | ending
  /-- Braces of a parameter, perhaps in quotation marks. -/
  | braces (quoted : Bool)
  /-- Quotation marks, perhaps in braces. -/
  | marks (inBraces : Bool)
  | expression
  /-- A text in the script. -/
  | document
  deriving DecidableEq

namespace Context

/-- Whether text counts as quoted. -/
def isQuoted : Context → Bool
  | bare | ending | braces false => false
  | _ => true

/-- Whether blanks and operators end the word. -/
def isBare (c : Context) : Bool := c == bare || c == ending

/-- What is wrong if the script ends here. -/
def fault? : Context → Option String
  | bare | ending | document => none
  | braces false => some "Missing \x27\x7d\x27"
  | expression => some "Missing \x27))\x27"
  | _ => some "Unterminated quoted string"

/-- Whether a backslash before a character goes away. -/
def unescapes (c : Context) (x : Char) : Bool :=
  !c.isQuoted || "\\\x60$".toList.contains x || (x == '"' && c != document) ||
    (x == '\x7d' && (c == braces true || c == marks true))

end Context

/-- Whether a character means nothing in words. -/
def isOrdinary (c : Char) : Bool := !"\\\x27\"$\x60\x7d() \t\n;&|<>".toList.contains c

/-- Whether a character is the name of a parameter of the shell. -/
def isSpecial (c : Char) : Bool := c.isDigit || "@*#?$-!".toList.contains c

/-- The words that close a list. -/
def closers : List String := ["then", "elif", "else", "fi", "do", "done", "esac", "\x7d"]

def reservedWords : List String :=
  closers ++ ["!", "case", "for", "if", "in", "until", "while", "\x7b"]

/-- The commands that belong to the language: their failure ends the shell. -/
def specialCommands : List String :=
  [":", ".", "break", "continue", "eval", "exec", "exit", "export", "local", "readonly", "return", "set",
    "shift", "times", "trap", "unset"]

/-- A word of the language, as messages show it. -/
def shown (s : String) : String := "\"" ++ s ++ "\""

namespace Token

/-- Whether a token is the given operator. -/
def isOperator (t : Token) (s : String) : Bool :=
  match t with
  | .operator o => o == s
  | _ => false

/-- Whether a token is the given reserved word. -/
def isKeyword (t : Token) (s : String) : Bool :=
  match t with
  | .keyword k => k == s
  | _ => false

/-- Whether a list of commands ends before a token. -/
def closes (t : Token) : Bool :=
  match t with
  | .operator o => o == ")" || o == ";;"
  | .keyword k => closers.contains k
  | .finish => true
  | _ => false

/-- What messages call a token. -/
def title : Token → String
  | .operator "\n" => "newline"
  | .operator s => shown s
  | .keyword s => shown s
  | .redirect _ _ => "redirection"
  | .document _ _ => "redirection"
  | .finish => "end of file"
  | .word _ => "word"

end Token

def putBack (t : Token) : Parse Unit := modify fun s => { s with pending := some t }

/-- Gives up at a token. -/
def unexpected {α : Type} (t : Token) (expected : Option String) : Parse α :=
  let wish := match expected with
    | some s => s!" (expecting {s})"
    | none => ""
  faulty (t.title ++ " unexpected" ++ wish)

/-- What counts when a token is read. -/
structure Reading where
  /-- Ends of lines do not count. -/
  skipsLines : Bool := false
  /-- Reserved words count. -/
  keywords : Bool := false
  aliases : Bool := false

/-- Where a command may begin. -/
def Reading.command : Reading := ⟨false, true, true⟩

/-- Where a command may begin, perhaps on a later line. -/
def Reading.commandBelow : Reading := ⟨true, true, true⟩

/-- Takes the text up to an apostrophe. -/
def takeApostrophes : Parse Raw := do
  let text ← takeRun (· != '\x27')
  match ← lookRaw with
  | some _ =>
    skipOne
    pure text
  | none => faulty "Unterminated quoted string"

/-- The operators that begin with a character, the longer ones first. -/
def operatorsAt (c : Char) : List String :=
  match c with
  | '&' => ["&&", "&"]
  | '|' => ["||", "|"]
  | ';' => [";;", ";"]
  | '(' => ["("]
  | ')' => [")"]
  | _ => []

/-- Takes an operator of a redirection; `stream` is the stream before it. -/
def takeRedirect (stream : Option Nat) : Parse Token := do
  let aim (n : Nat) (d : Direction) : Parse Token := pure (.redirect (stream.getD n) d)
  if ← tryChar '>' then
    if ← tryChar '>' then aim 1 .append
    else if ← tryChar '|' then aim 1 .overwrite
    else if ← tryChar '&' then aim 1 .duplicate
    else aim 1 .write
  else
    skipOne
    if ← tryChar '<' then pure (.document (stream.getD 0) (← tryChar '-'))
    else if ← tryChar '&' then aim 0 .duplicate
    else if ← tryChar '>' then aim 0 .both
    else aim 0 .read

/-- The script in backquotes, after the first of them. -/
def takeBackquoted (isQuoted : Bool) : Nat → Parse Raw
  | 0 => faulty "EOF in backquote substitution"
  | fuel + 1 => do
    let run ← takeRun fun c => c != '\\' && c != '\x60'
    match ← look with
    | none => faulty "EOF in backquote substitution"
    | some '\x60' =>
      skipOne
      pure run
    | some '\\' =>
      skipOne
      match ← lookRaw with
      | none => faulty "EOF in backquote substitution"
      | some c =>
        skipOne
        let bare := "$\x60\\".toList.contains c || (isQuoted && c == '"')
        let rest ← takeBackquoted isQuoted fuel
        pure (run ++ (if bare then [c] else ['\\', c]) ++ rest)
    | some _ =>
      let rest ← takeBackquoted isQuoted fuel
      pure (run ++ rest)

/-- The end of a pipeline of commands. -/
def pipelineOf (first : Command) (others : List Command) : Command :=
  if others.isEmpty then first else .pipeline (first :: others)

mutual

/-- The pieces of a word up to its end.  `depth` counts the parentheses that are open. -/
def wordParts : Nat → Context → Nat → Parse Word
  | 0, _, _ => faulty "Unterminated quoted string"
  | fuel + 1, context, depth => do
    let more (parts : Word) : Parse Word := do
      let others ← wordParts fuel context depth
      pure (parts ++ others)
    let isQuoted := context.isQuoted
    match ← look with
    | none =>
      match context.fault? with
      | some message => faulty message
      | none => pure []
    | some c =>
      if isOrdinary c then
        let run ← takeRun isOrdinary
        more [.text run isQuoted]
      else if context.isBare && "() \t\n;&|<>".toList.contains c then pure []
      else
        skipOne
        match c with
        | '\\' =>
          match ← lookRaw with
          | none => more [.text ['\\'] true]
          | some d =>
            skipOne
            more [.text (if context.unescapes d then [d] else ['\\', d]) true]
        | '\x27' =>
          if isQuoted then more [.text [c] true]
          else
            let text ← takeApostrophes
            more [.mark, .text text true]
        | '"' =>
          match context with
          | .marks _ => pure []
          | .expression | .document => more [.text [c] true]
          | _ =>
            let inside ← wordParts fuel (.marks !context.isBare) 0
            more (.mark :: inside ++ [.mark])
        | '$' =>
          if context == .ending then more [.text [c] true]
          else
            let part ← dollar fuel isQuoted
            more [part]
        | '\x60' =>
          if context == .ending then more [.text [c] true]
          else
            let script ← takeBackquoted isQuoted fuel
            let c ← commandsOf fuel script
            more [.output c isQuoted]
        | '\x7d' =>
          match context with
          | .braces _ => pure []
          | _ => more [.text [c] isQuoted]
        | '(' =>
          let others ← wordParts fuel context (depth + 1)
          pure (.text [c] isQuoted :: others)
        | ')' =>
          if context == .expression && depth == 0 then
            if ← tryChar ')' then pure [] else more [.text [c] true]
          else
            let others ← wordParts fuel context (depth - 1)
            pure (.text [c] isQuoted :: others)
        | c => more [.text [c] isQuoted]

/-- What stands for a dollar sign. -/
def dollar : Nat → Bool → Parse Part
  | 0, _ => faulty "Unterminated quoted string"
  | fuel + 1, isQuoted => do
    match ← look with
    | some '(' =>
      skipOne
      if ← tryChar '(' then
        let w ← wordParts fuel .expression 0
        pure (.arithmetic w.joined isQuoted)
      else
        let c ← enclosed fuel
        pure (.output c isQuoted)
    | some '\x7b' =>
      skipOne
      bracedParameter fuel isQuoted
    | some c =>
      if isNameStart c then
        let name ← takeName isNameChar fuel
        pure (.parameter name .whole [] isQuoted)
      else if isSpecial c then
        skipOne
        pure (.parameter [c] .whole [] isQuoted)
      else pure (.text ['$'] isQuoted)
    | none => pure (.text ['$'] isQuoted)

/-- A parameter in braces, after the first of them. -/
def bracedParameter : Nat → Bool → Parse Part
  | 0, _ => faulty "Missing \x27\x7d\x27"
  | fuel + 1, isQuoted => do
    match ← look with
    | none => unknownParameter fuel isQuoted
    | some c =>
      if isNameStart c then treatedParameter fuel isQuoted (← takeName isNameChar fuel)
      else if c.isDigit then treatedParameter fuel isQuoted (← takeName Char.isDigit fuel)
      else if c == '\x7d' then unknownParameter fuel isQuoted
      else
        skipOne
        if c == '#' then
          let start ← get
          match ← look with
          | some d =>
            if isNameChar d then
              let name ← takeName (if d.isDigit then Char.isDigit else isNameChar) fuel
              if ← tryChar '\x7d' then pure (.parameter name .length [] isQuoted)
              else unknownParameter fuel isQuoted
            else
              skipOne
              if d != '\x7d' && (← look) == some '\x7d' then
                skipOne
                if isSpecial d then pure (.parameter [d] .length [] isQuoted)
                else pure (.parameter [] .unknown [] isQuoted)
              else
                set start
                treatedParameter fuel isQuoted ['#']
          | none => unknownParameter fuel isQuoted
        else if isSpecial c then treatedParameter fuel isQuoted [c]
        else unknownParameter fuel isQuoted

/-- The rest of a parameter in braces with which nobody knows what to do. -/
def unknownParameter : Nat → Bool → Parse Part
  | 0, _ => faulty "Missing \x27\x7d\x27"
  | fuel + 1, isQuoted => do
    let w ← wordParts fuel (.braces isQuoted) 0
    pure (.parameter [] .unknown w isQuoted)

/-- The rest of a parameter in braces, after its name.  The end of a line right there does not count. -/
def treatedParameter : Nat → Bool → Raw → Parse Part
  | 0, _, _ => faulty "Missing \x27\x7d\x27"
  | fuel + 1, isQuoted, name => do
    let operand (t : Treatment) : Parse Part := do
      skipOne
      let w ← wordParts fuel (.braces isQuoted) 0
      pure (.parameter name t w.joined isQuoted)
    let cut (c : Char) (t : Bool → Treatment) : Parse Part := do
      skipOne
      let longest ← tryChar c
      let w ← wordParts fuel (.braces false) 0
      pure (.parameter name (t longest) w.joined isQuoted)
    let simple (orEmpty : Bool) : Option Char → Option Treatment
      | some '-' => some (.orElse orEmpty)
      | some '=' => some (.orAssign orEmpty)
      | some '?' => some (.orFail orEmpty)
      | some '+' => some (.ifSet orEmpty)
      | _ => none
    match ← look with
    | some '\x7d' =>
      skipOne
      pure (.parameter name .whole [] isQuoted)
    | some ':' =>
      skipOne
      let c ← look
      match simple true c with
      | some t => operand t
      | none => operand (if c == some '\x7d' then .whole else .unknown)
    | some '%' => cut '%' .cutEnd
    | some '#' => cut '#' .cutFront
    | c =>
      match simple false c with
      | some t => operand t
      | none =>
        if c == some '\n' then modify fun s => { s with line := s.line - 1 }
        operand .unknown

/-- The commands up to a closing parenthesis. -/
def enclosed : Nat → Parse Command
  | 0 => faulty "end of file unexpected"
  | fuel + 1 => do
    let c ← commandList fuel false true .nothing
    let t ← readToken fuel {}
    if t.isOperator ")" then pure c else unexpected t (some (shown ")"))

/-- The commands of a script that is a part of a word. -/
def commandsOf : Nat → Raw → Parse Command
  | 0, _ => faulty "end of file unexpected"
  | fuel + 1, script => fun s =>
    match commandList fuel false true .nothing { rest := script, aliases := s.aliases } with
    | .ok (c, _) => .ok (c, s)
    | .error f => .error f

/-- The next word or operator in the script. -/
def lexToken : Nat → Context → Parse Token
  | 0, _ => faulty "end of file unexpected"
  | fuel + 1, context => do
    match ← look with
    | none => pure .finish
    | some c =>
      if c == ' ' || c == '\t' then
        skipOne
        lexToken fuel context
      else if c == '#' then
        let _ ← takeRun (· != '\n')
        lexToken fuel context
      else if c == '\n' then
        skipLineEnd
        pure (.operator "\n")
      else
        match operatorsAt c with
        | [only] =>
          skipOne
          pure (.operator only)
        | [double, single] =>
          skipOne
          if ← tryChar c then pure (.operator double) else pure (.operator single)
        | _ =>
          let w ← wordParts fuel context 0
          let w := w.joined
          let next ← look
          if next == some '<' || next == some '>' then
            match w with
            | [] => takeRedirect none
            | [.text [d] false] => if d.isDigit then takeRedirect (some (number [d])) else pure (.word w)
            | _ => pure (.word w)
          else pure (.word w)

/-- The next token. -/
def readToken : Nat → Reading → Parse Token
  | 0, _ => faulty "end of file unexpected"
  | fuel + 1, reading => do
    let s ← get
    let t ← match s.pending with
      | some t =>
        set { s with pending := none }
        pure t
      | none => lexToken fuel .bare
    if reading.skipsLines && t.isOperator "\n" then readToken fuel reading
    else
      let s ← get
      let aliases := reading.aliases || s.continues
      set { s with continues := false }
      match t with
      | .word w =>
        match w.literal? with
        | some text =>
          if reading.keywords && reservedWords.contains text.string then pure (.keyword text.string)
          else
            match if aliases then s.aliases.lookup text else none with
            | some value =>
              if s.insertions.any (·.name == text) then pure t
              else
                if !value.isEmpty then
                  let i : Insertion :=
                    ⟨text, value.getLast? == some ' ' || value.getLast? == some '\t', s.rest⟩
                  modify fun s => { s with rest := value, insertions := i :: s.insertions }
                readToken fuel { reading with aliases }
            | none => pure t
        | none => pure t
      | t => pure t

/-- Commands one after the other, after those that have been read.  With `oneLine`, they end with a
line; `begun` tells whether they may end where they are. -/
def commandList : Nat → Bool → Bool → Command → Parse Command
  | 0, _, _, _ => faulty "end of file unexpected"
  | fuel + 1, oneLine, begun, before => do
    let t ← readToken fuel (if oneLine then .command else .commandBelow)
    match t with
    | .operator "\n" => pure before
    | .finish =>
      putBack t
      pure before
    | t =>
      putBack t
      if begun && !oneLine && t.closes then pure before
      else
        let c ← andOrList fuel
        let t ← readToken fuel {}
        match t with
        | .operator "&" => commandList fuel oneLine true (before.join (.background c))
        | .operator ";" => commandList fuel oneLine true (before.join c)
        | .operator "\n" =>
          putBack t
          commandList fuel oneLine true (before.join c)
        | .finish =>
          putBack t
          pure (before.join c)
        | t =>
          if oneLine then unexpected t none
          else
            putBack t
            pure (before.join c)

/-- Pipelines joined by `&&` and `||`. -/
def andOrList : Nat → Parse Command
  | 0 => faulty "end of file unexpected"
  | fuel + 1 => do andOrRest fuel (← pipeline fuel .command)

/-- What follows a pipeline in such a list. -/
def andOrRest : Nat → Command → Parse Command
  | 0, _ => faulty "end of file unexpected"
  | fuel + 1, first => do
    let t ← readToken fuel {}
    match t with
    | .operator "&&" => andOrRest fuel (.andThen first (← pipeline fuel .commandBelow))
    | .operator "||" => andOrRest fuel (.orElse first (← pipeline fuel .commandBelow))
    | t =>
      putBack t
      pure first

def pipeline : Nat → Reading → Parse Command
  | 0, _ => faulty "end of file unexpected"
  | fuel + 1, reading => do
    let t ← readToken fuel reading
    if t.isKeyword "!" then
      let first ← command fuel .command
      pure (.negate (pipelineOf first (← pipeRest fuel)))
    else
      putBack t
      let first ← command fuel {}
      pure (pipelineOf first (← pipeRest fuel))

/-- The other commands of a pipeline. -/
def pipeRest : Nat → Parse (List Command)
  | 0 => faulty "end of file unexpected"
  | fuel + 1 => do
    let t ← readToken fuel {}
    if t.isOperator "|" then
      let c ← command fuel .commandBelow
      let others ← pipeRest fuel
      pure (c :: others)
    else
      putBack t
      pure []

/-- Takes the given reserved word. -/
def reserved : Nat → Reading → String → Parse Unit
  | 0, _, _ => faulty "end of file unexpected"
  | fuel + 1, reading, s => do
    let t ← readToken fuel reading
    if t.isKeyword s then pure () else unexpected t (some (shown s))

def command : Nat → Reading → Parse Command
  | 0, _ => faulty "end of file unexpected"
  | fuel + 1, reading => do
    let line := (← get).line
    let t ← readToken fuel reading
    let redirected (c : Command) : Parse Command := do
      let rs ← redirects fuel .command
      pure (if rs.isEmpty then c else .group line c rs)
    match t with
    | .keyword "if" => redirected (← conditional fuel)
    | .keyword "while" => redirected (← repetition fuel true)
    | .keyword "until" => redirected (← repetition fuel false)
    | .keyword "for" => redirected (← iteration fuel line)
    | .keyword "case" => redirected (← choice fuel line)
    | .keyword "\x7b" =>
      let body ← commandList fuel false false .nothing
      reserved fuel {} "\x7d"
      redirected body
    | .operator "(" =>
      let body ← commandList fuel false false .nothing
      let t ← readToken fuel {}
      if t.isOperator ")" then
        let rs ← redirects fuel .command
        pure (.subshell line body rs)
      else unexpected t (some (shown ")"))
    | .word _ | .redirect _ _ | .document _ _ =>
      putBack t
      simpleCommand fuel (← get).line true [] [] []
    | t => unexpected t none

/-- The target of a redirection, after its operator. -/
def redirectTarget : Nat → Token → Parse (Redirect Word)
  | 0, _ => faulty "end of file unexpected"
  | fuel + 1, t => do
    match t with
    | .document stream strip =>
      match ← lexToken fuel .ending with
      | .word w =>
        let mark := w.bareText
        let text ← takeDocument mark strip (!w.isQuoted)
        if w.isQuoted then pure ⟨stream, .text, [.text text true]⟩
        else
          let inside ← documentParts fuel text
          pure ⟨stream, .text, inside⟩
      | t => unexpected t none
    | .redirect stream direction =>
      match ← readToken fuel {} with
      | .word w => pure ⟨stream, direction, w⟩
      | t => unexpected t none
    | t => unexpected t none

/-- The pieces of a text in the script. -/
def documentParts : Nat → Raw → Parse Word
  | 0, _ => faulty "end of file unexpected"
  | fuel + 1, text => fun s =>
    match wordParts fuel .document 0 { rest := text, line := s.line + 1, aliases := s.aliases } with
    | .ok (w, _) => .ok (w.joined, s)
    | .error f => .error f

def redirects : Nat → Reading → Parse (List (Redirect Word))
  | 0, _ => faulty "end of file unexpected"
  | fuel + 1, reading => do
    let t ← readToken fuel reading
    match t with
    | .redirect _ _ | .document _ _ =>
      let r ← redirectTarget fuel t
      let others ← redirects fuel {}
      pure (r :: others)
    | t =>
      putBack t
      pure []

/-- The rest of a simple command: its assignments, words and redirections so far, the newest first.
`atFront` tells whether assignments and aliases still count. -/
def simpleCommand : Nat → Nat → Bool → List (Raw × Word) → List Word → List (Redirect Word) →
    Parse Command
  | 0, _, _, _, _, _ => faulty "end of file unexpected"
  | fuel + 1, line, atFront, assignments, words, rs => do
    let t ← readToken fuel { aliases := atFront }
    let finished : Parse Command := do
      putBack t
      pure (.simple line assignments.reverse words.reverse rs.reverse)
    match t with
    | .word w =>
      match if atFront then w.assignment? else none with
      | some a => simpleCommand fuel line atFront (a :: assignments) words rs
      | none => simpleCommand fuel line false assignments (w :: words) rs
    | .redirect _ _ | .document _ _ =>
      let r ← redirectTarget fuel t
      simpleCommand fuel line atFront assignments words (r :: rs)
    | .operator "(" =>
      match assignments, words, rs with
      | [], [w], [] =>
        let t ← readToken fuel {}
        if t.isOperator ")" then
          let name := w.bareText
          if w.literal?.isSome && isName name && !specialCommands.contains name.string then
            let body ← command fuel .commandBelow
            pure (.define name body)
          else faulty "Bad function name"
        else unexpected t (some (shown ")"))
      | _, _, _ => finished
    | _ => finished

/-- The rest of a choice between two commands, after its first word. -/
def conditional : Nat → Parse Command
  | 0 => faulty "end of file unexpected"
  | fuel + 1 => do
    let condition ← commandList fuel false false .nothing
    reserved fuel {} "then"
    let yes ← commandList fuel false false .nothing
    let t ← readToken fuel {}
    match t with
    | .keyword "elif" => pure (.branch condition yes (← conditional fuel))
    | .keyword "else" =>
      let no ← commandList fuel false false .nothing
      reserved fuel {} "fi"
      pure (.branch condition yes no)
    | t =>
      putBack t
      reserved fuel {} "fi"
      pure (.branch condition yes .nothing)

/-- The rest of a repetition, after its first word. -/
def repetition : Nat → Bool → Parse Command
  | 0, _ => faulty "end of file unexpected"
  | fuel + 1, whileTrue => do
    let condition ← commandList fuel false false .nothing
    reserved fuel {} "do"
    let body ← commandList fuel false false .nothing
    reserved fuel {} "done"
    pure (.loop whileTrue condition body)

/-- The words of an iteration, up to the end of a line, and the token that ends them. -/
def iterationWords : Nat → Parse (List Word)
  | 0 => faulty "end of file unexpected"
  | fuel + 1 => do
    match ← readToken fuel {} with
    | .word w =>
      let others ← iterationWords fuel
      pure (w :: others)
    | .operator "\n" | .operator ";" => pure []
    | t => unexpected t none

/-- The rest of an iteration, after its first word. -/
def iteration : Nat → Nat → Parse Command
  | 0, _ => faulty "end of file unexpected"
  | fuel + 1, line => do
    let bad : Parse Command := faulty "Bad for loop variable"
    match ← readToken fuel {} with
    | .word w =>
      match w.literal? with
      | some name =>
        if !isName name then bad
        else
          let t ← readToken fuel .commandBelow
          let words ←
            if t.isKeyword "in" then iterationWords fuel
            else
              if !t.isOperator ";" then putBack t
              pure [[.parameter ['@'] .whole [] true]]
          reserved fuel .commandBelow "do"
          let body ← commandList fuel false false .nothing
          reserved fuel {} "done"
          pure (.each line name words body)
      | none => bad
    | _ => bad

/-- The rest of a choice by patterns, after its first word. -/
def choice : Nat → Nat → Parse Command
  | 0, _ => faulty "end of file unexpected"
  | fuel + 1, line => do
    let t ← readToken fuel {}
    match t with
    | .word w =>
      reserved fuel .commandBelow "in"
      pure (.choose line w (← arms fuel))
    | t => unexpected t (some "word")

/-- The arms of a choice by patterns, up to its last word. -/
def arms : Nat → Parse (List (List Word × Command))
  | 0 => faulty "end of file unexpected"
  | fuel + 1 => do
    let t ← readToken fuel ⟨true, true, false⟩
    if t.isKeyword "esac" then pure []
    else
      let t ← if t.isOperator "(" then readToken fuel {} else pure t
      let ps ← patterns fuel t
      let body ← commandList fuel false true .nothing
      let t ← readToken fuel ⟨true, true, false⟩
      if t.isKeyword "esac" then pure [(ps, body)]
      else if t.isOperator ";;" then
        let others ← arms fuel
        pure ((ps, body) :: others)
      else unexpected t (some (shown ";;"))

/-- The patterns of an arm, from its first token up to its parenthesis. -/
def patterns : Nat → Token → Parse (List Word)
  | 0, _ => faulty "end of file unexpected"
  | fuel + 1, first => do
    let w : Word := match first with
      | .word w => w
      | .keyword s => [.text s.toList false]
      | _ => []
    let t ← readToken fuel {}
    if t.isOperator "|" then
      let others ← patterns fuel (← readToken fuel {})
      pure (w :: others)
    else if t.isOperator ")" then pure [w]
    else unexpected t (some (shown ")"))

end

/-- A number that exceeds the depth of any derivation for a script with some aliases. -/
def parseDepth (s : Source) : Nat :=
  16 * (s.rest.length + 4) * ((s.aliases.map fun a => a.2.length + 1).foldl (· + ·) 0 + 1)

/-- The next complete command of a script, and what is left; nothing at the end of the script. -/
def nextCommand (s : Source) : Except SyntaxFault (Option (Command × Source)) :=
  let s := { s with insertions := [], continues := false }
  match (commandList (parseDepth s) true true .nothing).run s with
  | .error f => .error f
  | .ok (.nothing, after) =>
    match after.pending with
    | some .finish => .ok none
    | _ => .ok (some (.nothing, after))
  | .ok (c, after) => .ok (some (c, after))

end LiveUnits.Shell
