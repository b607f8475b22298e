import TransferRouter.Error.Invalid
import TransferRouter.Text.Blank

/-!
Parameters and configuration. A configuration is read from named variables laid over the defaults;
the numeric variables are read in a fixed order before anything is checked.
-/

namespace TransferRouter

/-- Parameters kept in the store and changed by the authority. -/
structure Params where
  /-- The longest passthrough payload of a forwarding, in bytes. -/
  passthroughLimit : UInt32
  deriving DecidableEq

/-- The parameters before any were stored. -/
def Params.initial : Params := ⟨32768⟩

instance : Inhabited Params := ⟨.initial⟩

/-- Refuses a limit of nothing. -/
def Params.check (p : Params) : Except Invalid Unit :=
  if p.passthroughLimit = 0 then .error .zeroPassthroughLimit else .ok ()

/-- The accounts that the router owns. -/
structure Accounts where
  /-- Receives inbound transfers and pays outbound ones. -/
  holding : String
  /-- Receives what was left in the holding account. -/
  dust : String
  deriving DecidableEq

/-- How long recorded payloads live. -/
structure PendingConfig where
  /-- Seconds after which an entry expires. -/
  lifetime : UInt64
  /-- The most entries that one sweep removes. -/
  sweepLimit : UInt64
  deriving DecidableEq

/-- The configuration of a router. -/
structure Config where
  /-- The only signer of administrative calls. -/
  authority : String
  accounts : Accounts
  /-- The parameters stored when there are none. -/
  params : Params
  pending : PendingConfig
  deriving DecidableEq

/-- The default lifetime of a recorded payload: a day. -/
def defaultLifetime : UInt64 := 86400

/-- The default limit of a sweep. -/
def defaultSweepLimit : UInt64 := 200

namespace Config

/-- The configuration where no variable is set. -/
def initial : Config where
  authority := "orbiter-authority"
  accounts := ⟨"orbiter-holding", "orbiter-dust"⟩
  params := .initial
  pending := ⟨defaultLifetime, defaultSweepLimit⟩

instance : Inhabited Config := ⟨initial⟩

/-- Refuses empty names, a dust account that is the holding account, and limits of nothing. -/
def check (c : Config) : Except ConfigFault Unit := do
  if c.authority = "" then throw (.missing .authority)
  if c.accounts.holding = "" then throw (.missing .holding)
  if c.accounts.dust = "" then throw (.missing .dust)
  if c.accounts.holding = c.accounts.dust then throw .sharedAccount
  if c.params.passthroughLimit = 0 then throw (.notPositive .passthroughLimit)
  if c.pending.sweepLimit = 0 then throw (.notPositive .sweepLimit)

/-- The number that a variable holds, or the default if it is not set. Blanks around the numeral are
skipped. -/
def readNumber (lookup : String → Option String) (field : ConfigField) (limit default : Nat) :
    Except ConfigFault Nat :=
  match lookup field.variable with
  | none => .ok default
  | some raw =>
    match Decimal.read limit (Text.trim raw.toList) with
    | .ok n => .ok n
    | .error fault => .error (.notNumeral field raw fault)

/-- The configuration that variables describe, if it is a good one. -/
def ofVariables (lookup : String → Option String) : Except ConfigFault Config := do
  let text (field : ConfigField) (default : String) := (lookup field.variable).getD default
  let limit ← readNumber lookup .passthroughLimit UInt32.size initial.params.passthroughLimit.toNat
  let lifetime ← readNumber lookup .pendingLifetime UInt64.size initial.pending.lifetime.toNat
  let sweepLimit ← readNumber lookup .sweepLimit UInt64.size initial.pending.sweepLimit.toNat
  let config : Config := {
    authority := text .authority initial.authority
    accounts := ⟨text .holding initial.accounts.holding, text .dust initial.accounts.dust⟩
    params := ⟨UInt32.ofNat limit⟩
    pending := ⟨UInt64.ofNat lifetime, UInt64.ofNat sweepLimit⟩ }
  config.check
  return config

end Config

end TransferRouter
