/-!
# Formats by name

The format of a string field can often be told from its name: a name that ends
in `email` or `Url` says what the values look like.  A `Format.Rule` lists such
endings for one format:

* a *word* has to be the whole name or follow an underscore;
* a *hump* has to follow a lower-case letter, as in `avatarUrl`;
* a *tail* only has to end the name.

The rules are tried in order (`Format.guess`).
-/

namespace SchemaTree.Format

/-- The endings of names that tell one format. -/
structure Rule where
  format : String
  words : List String
  humps : List String
  tails : List String := []

/-- Whether a name is a word, or ends in it behind an underscore. -/
def endsInWord (name word : List Char) : Bool :=
  name == word || List.isSuffixOf ('_' :: word) name

/-- Whether a name ends in a hump behind a lower-case letter. -/
def endsInHump (name hump : List Char) : Bool :=
  hump.isSuffixOf name &&
    match (name.take (name.length - hump.length)).getLast? with
    | some c => 'a' ≤ c && c ≤ 'z'
    | none => false

/-- Whether a rule tells the format of a name. -/
def Rule.tells (r : Rule) (name : String) : Bool :=
  let cs := name.toList
  r.words.any (fun w => endsInWord cs w.toList) ||
    r.humps.any (fun h => endsInHump cs h.toList) ||
    r.tails.any (fun t => t.toList.isSuffixOf cs)

/-- The spellings of an address of electronic mail. -/
def mailWords : List String := ["mail", "Mail", "email", "eMail", "Email", "EMail"]

/-- The rules, in the order in which they are tried. -/
def rules : List Rule := [
  { format := "email"
    words := mailWords ++ mailWords.map (· ++ "_address")
    humps := ["Email"] },
  { format := "uri"
    words := ["url", "uri", "href", "homepage", "website"]
    humps := ["Url", "Uri", "Href"] },
  { format := "date-time"
    words := ["created_at", "updated_at", "deleted_at", "published_at", "timestamp"]
    humps := ["At"] },
  { format := "date"
    words := ["date", "birthday", "birth_date"]
    humps := ["Date"]
    tails := ["_on"] }]

/-- The format that a name tells. -/
def guess (name : String) : Option String := (rules.find? (·.tells name)).map (·.format)

end SchemaTree.Format
