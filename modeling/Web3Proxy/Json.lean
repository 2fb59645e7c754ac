import Web3Proxy.Request

/-! JSON texts and the params of a request. The code keeps `params` as the raw text of its
`Box<RawValue>`, so `get_cached_response` keys on that text and `eth_subscribe` matches it; to say
when two texts are equal as JSON values, texts are read here into the spec's canonical form, with
object members sorted by key and no whitespace. -/

namespace Web3Proxy

namespace Json

inductive Token
  | lbracket
  | rbracket
  | lbrace
  | rbrace
  | comma
  | colon
  | str (s : List Char)
  | num (n : Int)
  | tru
  | fls
  | nul
  deriving DecidableEq, Repr

/-- The insignificant whitespace of RFC 8259. -/
def isWs (c : Char) : Bool := c = ' ' || c = '\t' || c = '\n' || c = '\r'

/-- The character a two-character escape stands for; `\u` escapes are not read. -/
def unescape : Char → Option Char
  | '"' => some '"'
  | '\\' => some '\\'
  | '/' => some '/'
  | 'b' => some '\x08'
  | 'f' => some '\x0c'
  | 'n' => some '\n'
  | 'r' => some '\r'
  | 't' => some '\t'
  | _ => none

/-- The rest of a string literal after its opening quote: its characters, and the text after the
closing quote. A raw control character is not JSON. -/
def lexString : List Char → Option (List Char × List Char)
  | [] => none
  | ['\\'] => none
  | '"' :: rest => some ([], rest)
  | '\\' :: e :: rest =>
    (unescape e).bind fun c => (lexString rest).map fun (cs, r) => (c :: cs, r)
  | c :: rest =>
    if c.toNat < 0x20 then none else (lexString rest).map fun (cs, r) => (c :: cs, r)

def digitsValue (ds : List Char) : Nat :=
  ds.foldl (fun n d => 10 * n + (d.toNat - '0'.toNat)) 0

/-- An integer literal: `-`, then `0` or a nonzero digit and more digits. A fraction or an
exponent is not read, and a leading zero is not JSON. -/
def lexNumber (cs : List Char) : Option (Int × List Char) :=
  let (neg, cs) := match cs with
    | '-' :: r => (true, r)
    | r => (false, r)
  let (ds, rest) := cs.span Char.isDigit
  let n : Int := if neg then -(digitsValue ds : Int) else digitsValue ds
  match ds, rest with
  | [], _ => none
  | '0' :: _ :: _, _ => none
  | _, c :: _ => if c = '.' || c = 'e' || c = 'E' then none else some (n, rest)
  | _, [] => some (n, rest)

/-- The tokens of a text, whitespace dropped; each step reads at least one character. -/
def lex : Nat → List Char → Option (List Token)
  | 0, _ => none
  | _ + 1, [] => some []
  | fuel + 1, c :: cs =>
    let more (t : Token) (rest : List Char) := (lex fuel rest).map (t :: ·)
    if isWs c then lex fuel cs
    else match c, cs with
      | '[', _ => more .lbracket cs
      | ']', _ => more .rbracket cs
      | '\x7b', _ => more .lbrace cs
      | '\x7d', _ => more .rbrace cs
      | ',', _ => more .comma cs
      | ':', _ => more .colon cs
      | '"', _ => (lexString cs).bind fun (s, rest) => more (.str s) rest
      | 't', 'r' :: 'u' :: 'e' :: rest => more .tru rest
      | 'f', 'a' :: 'l' :: 's' :: 'e' :: rest => more .fls rest
      | 'n', 'u' :: 'l' :: 'l' :: rest => more .nul rest
      | _, _ =>
        if c = '-' || c.isDigit then (lexNumber (c :: cs)).bind fun (n, rest) => more (.num n) rest
        else none

/-- The canonical text of a string: `"` and `\` escaped, and the control characters the reader
takes. -/
def quote (s : List Char) : String :=
  let esc : Char → List Char
    | '"' => ['\\', '"']
    | '\\' => ['\\', '\\']
    | '\x08' => ['\\', 'b']
    | '\x0c' => ['\\', 'f']
    | '\n' => ['\\', 'n']
    | '\r' => ['\\', 'r']
    | '\t' => ['\\', 't']
    | c => [c]
  String.mk ('"' :: s.flatMap esc ++ ['"'])

/-- The order of Rust's `String` on keys: lexicographic by code point. -/
def keyLt : List Char → List Char → Bool
  | [], [] => false
  | [], _ :: _ => true
  | _ :: _, [] => false
  | a :: as, b :: bs => a.toNat < b.toNat || (a = b && keyLt as bs)

/-- Members in the order of their keys. -/
def insertMember (m : List Char × String) : List (List Char × String) → List (List Char × String)
  | [] => [m]
  | n :: ms => if keyLt m.1 n.1 then m :: n :: ms else n :: insertMember m ms

/-- An object in canonical form, or `none` when a key repeats. -/
def closeObject (members : List (List Char × String)) : Option String :=
  if (members.map Prod.fst).Nodup then
    some ("\x7b" ++ ",".intercalate ((members.foldr insertMember []).map fun (k, v) =>
      quote k ++ ":" ++ v) ++ "\x7d")
  else none

mutual

/-- The canonical text of the value at the front of the tokens, and the tokens after it. -/
def value : Nat → List Token → Option (String × List Token)
  | 0, _ => none
  | _ + 1, .nul :: rest => some ("null", rest)
  | _ + 1, .tru :: rest => some ("true", rest)
  | _ + 1, .fls :: rest => some ("false", rest)
  | _ + 1, .num n :: rest => some (toString n, rest)
  | _ + 1, .str s :: rest => some (quote s, rest)
  | _ + 1, .lbracket :: .rbracket :: rest => some ("[]", rest)
  | fuel + 1, .lbracket :: rest => items fuel [] rest
  | _ + 1, .lbrace :: .rbrace :: rest => some ("\x7b\x7d", rest)
  | fuel + 1, .lbrace :: rest => members fuel [] rest
  | _ + 1, _ => none

def items : Nat → List String → List Token → Option (String × List Token)
  | 0, _, _ => none
  | fuel + 1, acc, toks =>
    match value fuel toks with
    | some (v, .comma :: rest) => items fuel (acc ++ [v]) rest
    | some (v, .rbracket :: rest) => some ("[" ++ ",".intercalate (acc ++ [v]) ++ "]", rest)
    | _ => none

def members : Nat → List (List Char × String) → List Token → Option (String × List Token)
  | 0, _, _ => none
  | fuel + 1, acc, .str k :: .colon :: toks =>
    match value fuel toks with
    | some (v, .comma :: rest) => members fuel (acc ++ [(k, v)]) rest
    | some (v, .rbrace :: rest) => (closeObject (acc ++ [(k, v)])).map (·, rest)
    | _ => none
  | _ + 1, _, _ => none

end

/-- The spec's canonical serialization of a JSON text: "sorted object keys and no extraneous
whitespace". The reader is partial: it takes no `\u` escapes, no fractions or exponents, and no
object with a repeated key; on those texts, as on texts that are not JSON, it gives `none`. -/
def canonical (text : String) : Option String :=
  (lex (text.length + 1) text.toList).bind fun toks =>
    match value (toks.length + 1) toks with
    | some (c, []) => some c
    | _ => none

end Json

/-- Two texts are equal as JSON values, for the texts `Json.canonical` reads: both are read, to one
canonical form. Texts outside the reader (a `\u` escape, a fraction or exponent, a repeated key)
are equal to none, not even to themselves. -/
def JsonEq (t₁ t₂ : String) : Prop := (Json.canonical t₁).isSome ∧ Json.canonical t₁ = Json.canonical t₂

instance (t₁ t₂ : String) : Decidable (JsonEq t₁ t₂) := inferInstanceAs (Decidable (_ ∧ _))

example : JsonEq "\x7b\"b\": [1, true], \"a\": null\x7d" "\x7b\"a\":null,\"b\":[1,true]\x7d" := by
  decide
example : ¬JsonEq "[01]" "[1]" := by decide

/-- Under every head hash, `get_cached_response` builds one key for two requests exactly when they
have the same method and the same raw params text: the key holds the text of the params'
`Box<RawValue>` as received, not a canonical form. -/
theorem cacheKey_eq_iff (head : H256) (r₁ r₂ : JsonRpcRequest) :
    cacheKey head r₁ = cacheKey head r₂ ↔ r₁.method = r₂.method ∧ r₁.params = r₂.params := by
  simp [cacheKey]

def compactParams : String := "[\"0x00000000219ab540356cbb839cbe05303d7705fa\",\"latest\"]"
def spacedParams : String := "[\"0x00000000219ab540356cbb839cbe05303d7705fa\", \"latest\"]"

def getBalanceCompact : JsonRpcRequest := ⟨"1", "eth_getBalance", some compactParams⟩
def getBalanceSpaced : JsonRpcRequest := ⟨"1", "eth_getBalance", some spacedParams⟩

/-- One balance query, with and without a space after the comma: the params are equal as JSON
values, and still the two requests get two cache keys under every head hash. -/
theorem respaced_params_split_cache :
    getBalanceCompact.method = getBalanceSpaced.method ∧ JsonEq compactParams spacedParams ∧
      ∀ head, cacheKey head getBalanceCompact ≠ cacheKey head getBalanceSpaced :=
  ⟨rfl, by decide, fun _ h => absurd (congrArg (fun k : CacheKey => k.2.2) h)
    (show some compactParams ≠ some spacedParams by decide)⟩

end Web3Proxy
