import Vadum.Core.Validate
import Vadum.Theory.Signing

/-!
# The Error Names the Difference

When a message is not the canonical one, the error says how the two differ. What
it says is so, whatever the other message is: an error about the amount comes from
a transfer with other data, one about the destination from another destination
or from another token account or owner in the instruction that creates it, and
one about an instruction that is not allowed from an instruction whose program or
data is not what the canonical message has in its place. What is left when
nothing is found is outside the instructions, and then these are the same.

An error is found at one position, by the first check that fails there.
`explainInstruction_explains` goes through the checks at a position, and the rest
is about which position that is.

## Main definitions

* `CanonicalParts`: The instructions a canonical message is made of.
* `Explains`: What an error says of the instructions of two messages.

## Theorems

* `explainInstruction_explains`: What is found at one position.
* `explainInstruction_eq_none`: A position where nothing is found is the same.
* `explainDifference_explains`: The error names a difference there is.
-/

namespace Vadum

variable (kit : Kit)

/-- The instructions a canonical message is made of: perhaps one that advances the
    nonce, perhaps one that creates the token account, and the transfer. -/
structure CanonicalParts where
  advance : Option ResolvedInstruction
  createAta : Option ResolvedInstruction
  transfer : ResolvedInstruction
  tokenProgram : TokenProgram
  advances : ∀ instruction, advance = some instruction → isAdvanceNonce kit instruction = true
  creates : ∀ instruction, createAta = some instruction →
    instruction.program = some kit.associatedTokenProgramAddress
  transfers : transfer.data[0]? = some transferChecked
  moves : transfer.program = some (programAddressOf kit tokenProgram)

variable {kit}

/-- In the order they stand in a message. -/
def CanonicalParts.instructions (parts : CanonicalParts kit) : List ResolvedInstruction :=
  parts.advance.toList ++ parts.createAta.toList ++ [parts.transfer]

/-- The account an instruction has at an index, if it has one there and it is known. -/
def ResolvedInstruction.account (instruction : ResolvedInstruction) (index : Nat) :
    Option Address :=
  instruction.accounts[index]?.join

/-- What an error says of the instructions of a message, beside the canonical ones. -/
structure Explains (parts : CanonicalParts kit) (got : List ResolvedInstruction)
    (error : Thrown) : Prop where
  named : ∃ code detail, error = vadumError code detail
  /-- The canonical message starts by advancing the nonce, and this one does not. -/
  order : ∀ detail, error = vadumError .canonInstructionOrder detail →
    (∃ instruction, parts.instructions.head? = some instruction ∧
      isAdvanceNonce kit instruction = true) ∧
    ∀ instruction, got.head? = some instruction → isAdvanceNonce kit instruction = false
  /-- What stands where the transfer should has other data. -/
  amount : ∀ detail, error = vadumError .canonAmountMismatch detail →
    ∃ (index : Nat) (g : ResolvedInstruction), got[index]? = some g ∧
      parts.instructions[index]? = some parts.transfer ∧ g.data ≠ parts.transfer.data
  /-- The destination of the transfer is another, or the account or the owner of the
      token account that is created. -/
  destination : ∀ detail, error = vadumError .canonDestinationMismatch detail →
    ∃ (index : Nat) (g w : ResolvedInstruction), got[index]? = some g ∧
      parts.instructions[index]? = some w ∧
      (w = parts.transfer ∧ g.account 2 ≠ w.account 2 ∨
        parts.createAta = some w ∧ (g.account 1 ≠ w.account 1 ∨ g.account 2 ≠ w.account 2))
  /-- An instruction has no counterpart in its place with its program and data. -/
  notAllowed : ∀ detail, error = vadumError .canonInstructionNotAllowed detail →
    ∃ (index : Nat) (g : ResolvedInstruction), got[index]? = some g ∧
      ∀ w, parts.instructions[index]? = some w → g.program ≠ w.program ∨ g.data ≠ w.data
  /-- Where nothing is found, the instructions are the same. -/
  rest : error = mismatch "the fee payer, signer header or lifetime differs" [] →
    got = parts.instructions

section Parts

variable {parts : CanonicalParts kit} {w : ResolvedInstruction}

theorem CanonicalParts.mem_cases (hmem : w ∈ parts.instructions) :
    parts.advance = some w ∨ parts.createAta = some w ∨ w = parts.transfer := by
  rcases List.mem_append.mp hmem with hfirst | hlast
  · rcases List.mem_append.mp hfirst with hadvance | hcreate
    · exact .inl (Option.mem_toList.mp hadvance)
    · exact .inr (.inl (Option.mem_toList.mp hcreate))
  · exact .inr (.inr (List.mem_singleton.mp hlast))

theorem CanonicalParts.program_advance (hadvance : parts.advance = some w) :
    w.program = some kit.systemProgramAddress :=
  (of_decide_eq_true (parts.advances w hadvance)).1

variable (hprograms : kit.programs.Nodup)
include hprograms

/-- The system program, the token program and the program for token accounts are
    different ones. -/
theorem CanonicalParts.program_ne (parts : CanonicalParts kit) :
    kit.systemProgramAddress ≠ kit.associatedTokenProgramAddress ∧
      parts.transfer.program ≠ some kit.systemProgramAddress ∧
      parts.transfer.program ≠ some kit.associatedTokenProgramAddress := by
  simp only [Kit.programs, List.nodup_cons, List.mem_cons, List.not_mem_nil, or_false,
    not_or] at hprograms
  rcases hprograms with ⟨⟨htoken, htoken2022, hata⟩, ⟨_, htokenAta⟩, htoken2022Ata, _⟩
  simp only [parts.moves, ne_eq, Option.some_inj]
  cases parts.tokenProgram with
  | splToken => exact ⟨hata, fun h => htoken h.symm, htokenAta⟩
  | token2022 => exact ⟨hata, fun h => htoken2022 h.symm, htoken2022Ata⟩

/-- Only the instruction that advances the nonce is for the system program. -/
theorem CanonicalParts.advances_of_program (hmem : w ∈ parts.instructions)
    (hprogram : w.program = some kit.systemProgramAddress) : isAdvanceNonce kit w = true := by
  rcases parts.program_ne hprograms with ⟨hata, htransfer, _⟩
  rcases CanonicalParts.mem_cases hmem with hadvance | hcreate | rfl
  · exact parts.advances w hadvance
  · rw [parts.creates w hcreate, Option.some_inj] at hprogram
    exact absurd hprogram.symm hata
  · exact absurd hprogram htransfer

/-- Only the instruction that creates the token account is for the program of these. -/
theorem CanonicalParts.creates_of_program (hmem : w ∈ parts.instructions)
    (hprogram : w.program = some kit.associatedTokenProgramAddress) :
    parts.createAta = some w := by
  rcases parts.program_ne hprograms with ⟨hata, _, htransfer⟩
  rcases CanonicalParts.mem_cases hmem with hadvance | hcreate | rfl
  · rw [CanonicalParts.program_advance hadvance, Option.some_inj] at hprogram
    exact absurd hprogram hata
  · exact hcreate
  · exact absurd hprogram htransfer

omit hprograms in
/-- What is for neither of the two is the transfer. -/
theorem CanonicalParts.eq_transfer (hmem : w ∈ parts.instructions)
    (hsystem : w.program ≠ some kit.systemProgramAddress)
    (hata : w.program ≠ some kit.associatedTokenProgramAddress) : w = parts.transfer := by
  rcases CanonicalParts.mem_cases hmem with hadvance | hcreate | htransfer
  · exact absurd (CanonicalParts.program_advance hadvance) hsystem
  · exact absurd (parts.creates w hcreate) hata
  · exact htransfer

end Parts

section Positions

variable {parts : CanonicalParts kit} {got : List ResolvedInstruction} {index : Nat}
  {detail : List (String × DetailValue)}

/-- An error that is about the accounts or the message says nothing else, unless it is
    the last one. -/
theorem explains_mismatch {reason : String}
    (hrest : reason = "the fee payer, signer header or lifetime differs" →
      got = parts.instructions) :
    Explains parts got (mismatch reason detail) where
  named := ⟨_, _, rfl⟩
  order := fun _ h => by cases h
  amount := fun _ h => by cases h
  destination := fun _ h => by cases h
  notAllowed := fun _ h => by cases h
  rest := fun h => by
    simp only [mismatch, vadumError, Thrown.vadum.injEq, VadumError.mk.injEq, List.cons.injEq,
      Prod.mk.injEq, DetailValue.text.injEq, true_and] at h
    exact hrest h.1

theorem explains_order (hstarts : ∃ instruction, parts.instructions.head? = some instruction ∧
      isAdvanceNonce kit instruction = true)
    (hindex : got.findIdx? (isAdvanceNonce kit) ≠ some 0) :
    Explains parts got (vadumError .canonInstructionOrder detail) where
  named := ⟨_, _, rfl⟩
  order := fun _ _ => by
    refine ⟨hstarts, fun instruction hhead => Bool.eq_false_of_not_eq_true fun hfirst => ?_⟩
    rcases List.head?_eq_some_iff.mp hhead with ⟨others, rfl⟩
    rw [List.findIdx?_cons, if_pos hfirst] at hindex
    exact hindex rfl
  amount := fun _ h => by cases h
  destination := fun _ h => by cases h
  notAllowed := fun _ h => by cases h
  rest := fun h => by cases h

theorem explains_notAllowed {g : ResolvedInstruction} (hgot : got[index]? = some g)
    (hdiffers : ∀ w, parts.instructions[index]? = some w →
      g.program ≠ w.program ∨ g.data ≠ w.data) :
    Explains parts got (vadumError .canonInstructionNotAllowed detail) where
  named := ⟨_, _, rfl⟩
  order := fun _ h => by cases h
  amount := fun _ h => by cases h
  destination := fun _ h => by cases h
  notAllowed := fun _ _ => ⟨index, g, hgot, hdiffers⟩
  rest := fun h => by cases h

theorem explains_destination {g w : ResolvedInstruction} (hgot : got[index]? = some g)
    (hwant : parts.instructions[index]? = some w)
    (hdiffers : w = parts.transfer ∧ g.account 2 ≠ w.account 2 ∨
      parts.createAta = some w ∧ (g.account 1 ≠ w.account 1 ∨ g.account 2 ≠ w.account 2)) :
    Explains parts got (vadumError .canonDestinationMismatch detail) where
  named := ⟨_, _, rfl⟩
  order := fun _ h => by cases h
  amount := fun _ h => by cases h
  destination := fun _ _ => ⟨index, g, w, hgot, hwant, hdiffers⟩
  notAllowed := fun _ h => by cases h
  rest := fun h => by cases h

theorem explains_amount {g : ResolvedInstruction} (hgot : got[index]? = some g)
    (hwant : parts.instructions[index]? = some parts.transfer)
    (hdiffers : g.data ≠ parts.transfer.data) :
    Explains parts got (vadumError .canonAmountMismatch detail) where
  named := ⟨_, _, rfl⟩
  order := fun _ h => by cases h
  amount := fun _ _ => ⟨index, g, hgot, hwant, hdiffers⟩
  destination := fun _ h => by cases h
  notAllowed := fun _ h => by cases h
  rest := fun h => by cases h

/-- What is found where both messages have an instruction. -/
theorem explainInstruction_some (hprograms : kit.programs.Nodup) {g w : ResolvedInstruction}
    {error : Thrown} (hgot : got[index]? = some g) (hwant : parts.instructions[index]? = some w)
    (hfound : explainInstruction kit index (some g) (some w) = some error) :
    Explains parts got error := by
  have hmem := List.mem_of_getElem? hwant
  have hcounterpart : g.program ≠ w.program ∨ g.data ≠ w.data →
      ∀ w', parts.instructions[index]? = some w' → g.program ≠ w'.program ∨ g.data ≠ w'.data := by
    intro hdiffers w' hw'
    rwa [← Option.some_inj.mp (hwant.symm.trans hw')]
  rw [explainInstruction] at hfound
  split at hfound
  · rename_i hkind
    cases hfound
    refine explains_notAllowed hgot (hcounterpart ?_)
    rcases hkind with hprogram | hdata | ⟨hsystem, hadvance⟩
    · exact .inl hprogram
    · exact .inr fun heq => hdata (by rw [heq])
    -- For the system program there is one instruction, and this is another.
    · by_contra hsame
      rcases not_or.mp hsame with ⟨hprogram, hdata⟩
      have hwanted := parts.advances_of_program hprograms hmem hsystem
      rw [isAdvanceNonce, decide_eq_true_eq] at hwanted hadvance
      rw [not_not.mp hprogram, not_not.mp hdata] at hadvance
      exact hadvance hwanted
  split at hfound
  · rename_i hata
    cases hfound
    have hcreate := parts.creates_of_program hprograms hmem hata.1
    exact explains_destination hgot hwant (.inr ⟨hcreate, hata.2⟩)
  simp only at hfound
  split at hfound
  · rename_i hamount
    cases hfound
    rcases hamount with ⟨⟨_, hsystem, hata⟩, hdata⟩
    have htransfer := CanonicalParts.eq_transfer hmem hsystem hata
    exact explains_amount hgot (htransfer ▸ hwant) (htransfer ▸ hdata)
  split at hfound
  · rename_i hdestination
    cases hfound
    rcases hdestination with ⟨⟨_, hsystem, hata⟩, haccount⟩
    have htransfer := CanonicalParts.eq_transfer hmem hsystem hata
    exact explains_destination hgot hwant (.inl ⟨htransfer, haccount⟩)
  split at hfound
  · rename_i hdata
    cases hfound
    exact explains_notAllowed hgot (hcounterpart (.inr hdata))
  split at hfound
  · cases hfound
    exact explains_mismatch fun h => absurd h (by decide)
  · cases hfound

/-- Where nothing is found, both messages have the same instruction. -/
theorem explainInstruction_eq_none {g w : Option ResolvedInstruction}
    (hnone : explainInstruction kit index g w = none) : g = w := by
  rcases w with _ | w
  · cases hnone
  rcases g with _ | g
  · cases hnone
  rw [explainInstruction] at hnone
  split at hnone
  · cases hnone
  rename_i hkind
  split at hnone
  · cases hnone
  simp only at hnone
  split at hnone
  · cases hnone
  split at hnone
  · cases hnone
  split at hnone
  · cases hnone
  rename_i hdata
  split at hnone
  · cases hnone
  rename_i haccounts
  -- Every check was passed, and together they cover the three fields.
  have hprogram : g.program = w.program := not_not.mp fun h => hkind (.inl h)
  refine congrArg some ?_
  cases g
  cases w
  simp only [ResolvedInstruction.mk.injEq]
  exact ⟨hprogram, not_not.mp haccounts, not_not.mp hdata⟩

/-- What is found at a position that one of the messages has. -/
theorem explainInstruction_explains (hprograms : kit.programs.Nodup) {error : Thrown}
    (hindex : index < max got.length parts.instructions.length)
    (hfound : explainInstruction kit index got[index]? parts.instructions[index]? = some error) :
    Explains parts got error := by
  cases hwant : parts.instructions[index]? with
  | none =>
      have hlength := List.getElem?_eq_none_iff.mp hwant
      have hlt : index < got.length := (lt_max_iff.mp hindex).resolve_right (not_lt.mpr hlength)
      rw [hwant, explainInstruction] at hfound
      cases hfound
      refine explains_notAllowed (List.getElem?_eq_getElem hlt) fun w hw => ?_
      rw [hwant] at hw
      cases hw
  | some w =>
      cases hgot : got[index]? with
      | none =>
          rw [hwant, hgot] at hfound
          cases hfound
          exact explains_mismatch fun h => absurd h (by decide)
      | some g =>
          rw [hwant, hgot] at hfound
          exact explainInstruction_some hprograms hgot hwant hfound

end Positions

section Messages

variable {parts : CanonicalParts kit} {got : List ResolvedInstruction}

/-- Where no position has a difference, the lists are the same. -/
theorem got_eq_of_none
    (hnone : (List.range (max got.length parts.instructions.length)).findSome? (fun index =>
      explainInstruction kit index got[index]? parts.instructions[index]?) = none) :
    got = parts.instructions := by
  refine List.ext_getElem? fun index => ?_
  by_cases hindex : index < max got.length parts.instructions.length
  · have hat := List.findSome?_eq_none_iff.mp hnone index (List.mem_range.mpr hindex)
    exact explainInstruction_eq_none hat
  · rcases max_le_iff.mp (not_lt.mp hindex) with ⟨hgot, hwant⟩
    rw [List.getElem?_eq_none hgot, List.getElem?_eq_none hwant]

/-- The error about two lists of instructions names a difference there is. -/
theorem explainInstructions_explains (hprograms : kit.programs.Nodup) :
    Explains parts got (explainInstructions kit got parts.instructions) := by
  unfold explainInstructions
  simp only
  split
  · rename_i foreign hforeign
    -- An instruction of a program that no canonical one is for differs wherever it is.
    rcases List.mem_iff_getElem?.mp (List.mem_of_find?_eq_some hforeign) with ⟨index, hgot⟩
    have hprogram := List.find?_some hforeign
    refine explains_notAllowed hgot fun w hw => .inl fun heq => of_decide_eq_true hprogram ?_
    exact List.mem_map.mpr ⟨w, List.mem_of_getElem? hw, heq.symm⟩
  split
  · rename_i hadvance
    exact explains_order ((Option.any_eq_true _ _).mp hadvance.1) hadvance.2
  · cases hfound : (List.range (max got.length parts.instructions.length)).findSome? fun index =>
        explainInstruction kit index got[index]? parts.instructions[index]? with
    | none => exact explains_mismatch fun _ => got_eq_of_none hfound
    | some error =>
        rcases List.exists_of_findSome?_eq_some hfound with ⟨index, hindex, hat⟩
        exact explainInstruction_explains hprograms (List.mem_range.mp hindex) hat

/-- The error names a difference there is: for a canonical message made of these parts
    and any other message that decodes to a list of instructions. -/
theorem explainDifference_explains (hprograms : kit.programs.Nodup)
    {actualBytes canonicalBytes : List UInt8} {version version' : MessageVersion}
    {lookups lookups' : Nat}
    (hactual : resolveInstructions kit actualBytes = some ⟨version, lookups, some got⟩)
    (hcanonical : resolveInstructions kit canonicalBytes
      = some ⟨version', lookups', some parts.instructions⟩) :
    Explains parts got (explainDifference kit actualBytes canonicalBytes) := by
  simp only [explainDifference, hactual, hcanonical, Option.bind_some]
  split
  · exact explains_mismatch fun h => absurd h (by decide)
  split
  · exact explains_mismatch fun h => absurd h (by decide)
  · exact explainInstructions_explains hprograms

end Messages

section Doubles

/-- Some instructions of a compiled message, and the bytes after them. -/
def decodeInstructions : Nat → List UInt8 → Option (List CompiledInstruction × List UInt8)
  | 0, rest => some ([], rest)
  | n + 1, program :: accounts :: rest =>
    match rest.drop accounts.toNat with
    | length :: data =>
      (decodeInstructions n (data.drop length.toNat)).map fun decoded =>
        (⟨program.toNat, (rest.take accounts.toNat).map UInt8.toNat, data.take length.toNat⟩
          :: decoded.1, decoded.2)
    | [] => none
  | _ + 1, _ => none

/-- A message of version 0 whose counts are of one byte: a header of three bytes, the
    accounts, the lifetime, the instructions and the number of lookup tables. -/
def decodeVersion0 (bytes : List UInt8) : Option CompiledTransactionMessage :=
  if bytes[0]? = some 0x80 then
    let count := (bytes.getD 4 0).toNat
    let rest := bytes.drop (5 + 32 * count + 32)
    (decodeInstructions (rest.getD 0 0).toNat (rest.drop 1)).map fun decoded =>
      { version := .number 0
        staticAccounts := (List.range count).map fun index =>
          addressOfBytes (Bytes.slice bytes (5 + 32 * index) 32)
        addressTableLookups := (decoded.2.getD 0 0).toNat
        instructions := some decoded.1 }
  else
    none

/-- The double of the library, decoding messages. -/
def decodingKit : Kit := { testKit with decodeMessage := decodeVersion0 }

/-- A message that creates a token account for the account at an index and moves ten
    units to it. -/
def ataMessage (readonly : UInt8) (accounts : List UInt8) (owner : UInt8) : List UInt8 :=
  [0x80, 2, 1, readonly, UInt8.ofNat accounts.length]
    ++ accounts.flatMap (List.replicate 32) ++ List.replicate 32 9
    ++ [2, 7, 6, 0, 3, owner, 4, 5, 6, 1, 1]
    ++ [6, 4, 2, 4, 3, 1, 10, 12, 10, 0, 0, 0, 0, 0, 0, 0, 6] ++ [0]

/-- The canonical one, for the merchant, who is the fee payer. -/
def merchantMessage : List UInt8 := ataMessage 4 [2, 1, 12, 13, 4, 251, 252, 250] 0

/-- The same for another owner, of the same token account. -/
def strangerMessage : List UInt8 := ataMessage 5 [2, 1, 12, 13, 4, 251, 252, 250, 8] 8

def merchantParts : CanonicalParts decodingKit where
  advance := none
  createAta := some
    { program := some (testAddress 250)
      accounts := [2, 13, 2, 4, 251, 252].map fun n => some (testAddress n)
      data := [1] }
  transfer :=
    { program := some (testAddress 252)
      accounts := [12, 4, 13, 1].map fun n => some (testAddress n)
      data := [12, 10, 0, 0, 0, 0, 0, 0, 0, 6] }
  tokenProgram := .splToken
  advances := fun _ h => by cases h
  creates := fun _ h => by cases h; rfl
  transfers := rfl
  moves := rfl

/-- The instructions of the other message. -/
def strangerInstructions : List ResolvedInstruction :=
  [{ program := some (testAddress 250)
     accounts := [2, 13, 8, 4, 251, 252].map fun n => some (testAddress n)
     data := [1] },
    merchantParts.transfer]

theorem resolve_merchantMessage : resolveInstructions decodingKit merchantMessage
    = some ⟨.number 0, 0, some merchantParts.instructions⟩ := by decide +kernel

theorem resolve_strangerMessage : resolveInstructions decodingKit strangerMessage
    = some ⟨.number 0, 0, some strangerInstructions⟩ := by decide +kernel

/-- Only the owner differs, and the error is about the destination: the token account and
    the transfer's destination are the same. -/
theorem explainDifference_owner :
    (∃ detail, explainDifference decodingKit strangerMessage merchantMessage
      = vadumError .canonDestinationMismatch detail) ∧
    resolveInstructions decodingKit strangerMessage
      = some ⟨.number 0, 0, some strangerInstructions⟩ ∧
    resolveInstructions decodingKit merchantMessage
      = some ⟨.number 0, 0, some merchantParts.instructions⟩ ∧
    ¬ ∃ (index : Nat) (g w : ResolvedInstruction), strangerInstructions[index]? = some g ∧
      merchantParts.instructions[index]? = some w ∧
      (w = merchantParts.transfer ∧ g.account 2 ≠ w.account 2 ∨
        merchantParts.createAta = some w ∧ g.account 1 ≠ w.account 1) := by
  refine ⟨⟨[("expected", .address (testAddress 13)), ("actual", .address (testAddress 13))],
    by decide +kernel⟩, resolve_strangerMessage, resolve_merchantMessage, ?_⟩
  rintro ⟨index, g, w, hgot, hwant, hdiffers⟩
  rcases index with _ | _ | index
  · cases hgot
    cases hwant
    exact absurd hdiffers (by decide)
  · cases hgot
    cases hwant
    exact absurd hdiffers (by decide)
  · cases hgot

/-- The error says that the account or the owner is another, and it is the owner. -/
theorem explainDifference_explains_stranger :
    decodingKit.programs.Nodup ∧ Explains merchantParts strangerInstructions
      (explainDifference decodingKit strangerMessage merchantMessage) :=
  ⟨by decide, explainDifference_explains (by decide) resolve_strangerMessage
    resolve_merchantMessage⟩

end Doubles

end Vadum
