import Vadum.Core.Kit

/-!
# The Projection of a Mint Account

What the network answers for a mint account is JSON of any shape. `projectMint`
takes from it what a mint is judged by: the token program from the account's
owner, and the decimals, the freeze authority and the extensions from what was
parsed. An account of another program is refused, and so is one without decimals
to read. Of the extensions whatever can be read is taken, and the rest is left
out or made up: an entry without a name is called unknown, one without a state
has an empty one.

## Main definitions

* `Json.field`: A field of a value, if it has fields.
* `tokenProgramByOwner`: The token program an account belongs to.
* `projectExtension`: What is taken from an entry of the extensions.
* `projectMint`: The projection.
-/

namespace Vadum

/-- A field of a value, where the value is a record and has it. -/
def Json.field (name : String) : Json → Option Json
  | .object fields => fields.lookup name
  | _ => none

variable (kit : Kit)

/-- The token program an account belongs to. -/
def tokenProgramByOwner (owner : Address) : Option TokenProgram :=
  if owner = kit.tokenProgramAddress then some .splToken
  else if owner = kit.token2022ProgramAddress then some .token2022
  else none

/-- What is taken from an entry of the extensions. -/
def projectExtension (entry : Json) : RawMintExtension where
  extension :=
    match entry.field "extension" with
    | some (.string name) => name
    | _ => "unknown"
  state :=
    match entry.field "state" with
    | some (.object state) => state
    | _ => []

/-- The projection of an account that a mint is judged by. `asAddress` is what a value
    is taken for where an address is expected: nothing checks that it is one. -/
def projectMint (asAddress : Json → Address) (mint owner : Address) (data : Json) :
    Except Thrown RawMintData := do
  let some tokenProgram := tokenProgramByOwner kit owner
    | throw (vadumError .mintIncompatible
        [("blockers", .blockers []),
          ("reason", .text "the account is not owned by a token program"),
          ("owner", .address owner)])
  let unparsed := vadumError .mintIncompatible
    [("blockers", .blockers []),
      ("reason", .text "the account was not fetched with encoding jsonParsed"),
      ("mint", .address mint)]
  let some (.object info) := (data.field "parsed").bind (Json.field "info")
    | throw unparsed
  let some (.number decimals) := info.lookup "decimals"
    | throw unparsed
  let extensions :=
    match info.lookup "extensions" with
    | some (.array entries) => entries
    | _ => []
  pure { mint, tokenProgram, decimals
         freezeAuthority :=
          match info.lookup "freezeAuthority" with
          | none => none
          | some .null => none
          | some value => some (asAddress value)
         extensions := extensions.map projectExtension }

end Vadum
