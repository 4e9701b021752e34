import Mathlib.Data.Nat.Basic

set_option autoImplicit false

/-!
# Secret redaction

Registered values are replaced wherever they stand, then whatever has the shape
of a credential. Each pass goes over the text once from the left and never
looks at what it has put in.
-/
namespace Shapeflow.Secrets

/-- One left-to-right pass: `found` tells how much of the rest to replace, and by what. -/
def substitute (found : List Char → Option (ℕ × List Char)) : ℕ → List Char → List Char
  | _, [] => []
  | skip + 1, _ :: r => substitute found skip r
  | 0, c :: r =>
    match found (c :: r) with
    | some (length, out) => out ++ substitute found (length - 1) r
    | none => c :: substitute found 0 r

/-- A registered credential. -/
structure Secret where
  value : List Char
  label : String
  long : 8 ≤ value.length

/-- The registered credentials, longest first, and the fingerprint of a value. -/
structure SecretRedactor where
  secrets : List Secret
  fingerprint : List Char → List Char

def SecretRedactor.placeholder (r : SecretRedactor) (label : String) (value : List Char) : List Char :=
  "[REDACTED:".toList ++ label.toList ++ [':'] ++ r.fingerprint value ++ [']']

def SecretRedactor.register (r : SecretRedactor) (secret : Secret) : SecretRedactor :=
  if r.secrets.any fun known => known.value = secret.value then r
  else { r with secrets := (r.secrets ++ [secret]).mergeSort fun a b => b.value.length ≤ a.value.length }

def foundSecret (r : SecretRedactor) (secret : Secret) (cs : List Char) : Option (ℕ × List Char) :=
  if secret.value.isPrefixOf cs then some (secret.value.length, r.placeholder secret.label secret.value)
  else none

def isAlnum (c : Char) : Bool := c.isAlpha || c.isDigit

def isKeyChar (c : Char) : Bool := isAlnum c || c = '_' || c = '-'

def isTokenChar (c : Char) : Bool := isKeyChar c || c = '.'

def isSpace (c : Char) : Bool := c ∈ [' ', '\t', '\n', '\r', '\x0b', '\x0c', '\x1c', '\x1d', '\x1e', '\x1f']

/-- `tvly-` and `sk-` keys. -/
def foundKey (r : SecretRedactor) (label : String) (prefixText cs : List Char) : Option (ℕ × List Char) :=
  if prefixText.isPrefixOf cs then
    let body := (cs.drop prefixText.length).takeWhile isKeyChar
    if 12 ≤ body.length then
      some (prefixText.length + body.length, r.placeholder label (prefixText ++ body))
    else none
  else none

/-- The rest of a text after a word, whatever the case of its letters. -/
def afterWord (word cs : List Char) : Option (List Char) :=
  if (cs.take word.length).map Char.toLower = word then some (cs.drop word.length) else none

/-- `authorization\s*[:=]\s*["']?bearer\s+` -/
def afterBearer (cs : List Char) : Option (List Char) := do
  let cs ← afterWord "authorization".toList cs
  let cs ← match cs.dropWhile isSpace with
    | c :: r => if c = ':' ∨ c = '=' then some (r.dropWhile isSpace) else none
    | [] => none
  let cs := match cs with
    | c :: r => if c = '"' ∨ c = '\'' then r else c :: r
    | [] => []
  let cs ← afterWord "bearer".toList cs
  if (cs.takeWhile isSpace).isEmpty then none else some (cs.dropWhile isSpace)

def credentialNames : List (List Char) :=
  ["api_key", "apikey", "access_token", "accesstoken", "token", "key"].map String.toList

/-- `[?&](?:api_?key|access_?token|token|key)=` -/
def afterCredentialName (cs : List Char) : Option (List Char) :=
  match cs with
  | c :: r =>
    if c = '?' ∨ c = '&' then credentialNames.findSome? fun name => afterWord (name ++ ['=']) r else none
  | [] => none

def isValueChar (c : Char) : Bool := c ≠ '&' ∧ c ≠ '"' ∧ c ≠ '\'' ∧ ¬ isSpace c

/-- A credential after a prefix that stays in the text. -/
def foundAfter (r : SecretRedactor) (label : String) (after : List Char → Option (List Char))
    (isBody : Char → Bool) (least : ℕ) (cs : List Char) : Option (ℕ × List Char) :=
  match after cs with
  | none => none
  | some rest =>
    let kept := cs.take (cs.length - rest.length)
    let body := rest.takeWhile isBody
    if least ≤ body.length then some (kept.length + body.length, kept ++ r.placeholder label body) else none

/-- The shape patterns, in their order. -/
def patterns (r : SecretRedactor) : List (List Char → Option (ℕ × List Char)) :=
  [foundKey r "tavily" "tvly-".toList, foundKey r "openai-compatible" "sk-".toList,
    foundAfter r "bearer" afterBearer isTokenChar 12,
    foundAfter r "query-credential" afterCredentialName isValueChar 8]

def SecretRedactor.redact (r : SecretRedactor) (text : List Char) : List Char :=
  (r.secrets.map (foundSecret r) ++ patterns r).foldl (fun text found => substitute found 0 text) text

def SecretRedactor.IsClean (r : SecretRedactor) (text : List Char) : Prop := r.redact text = text

end Shapeflow.Secrets
