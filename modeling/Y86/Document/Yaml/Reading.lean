import Y86.Document.Yaml.Construction

/-!
# Reading YAML

A text is read in three steps: its characters form tokens, its tokens form nodes, and its nodes become the objects of a
document. `readYaml` is the document of an input, or why there is none. Collections can lie inside each other only as
deeply as there is room for, which is not up to the text.
-/

namespace Y86.Document.Yaml

/-- The document of an input. A text without a document stands for the null value. -/
def readYaml (room : Nat) (input : Input) : Scan Graph := do
  match ← Node.ofTokens room (tokensOf room input) with
  | (_, none) => return { objects := #[.scalar .null], root := 0 }
  | (nodes, some root) => graphOf nodes root

end Y86.Document.Yaml
