import Vadum.Client.Pool

/-!
# The Limits of the Payer App

The payer's own limit on a single offline payment, and what a stolen device
can sign while it is held. Amounts are in base units of a 6-decimal mint.
-/

namespace Vadum

/-- The most the payer app signs in one payment. -/
def payerPerPaymentCap : Int := 20000000

/-- Above this the payer types the amount again before signing. -/
def payerRetypeThreshold : Int := 10000000

def withinPayerCap (amount cap : Int) : Bool := 0 < amount ∧ amount ≤ cap

def needsRetype (amount threshold : Int) : Bool := threshold < amount

/-- What an unlocked stolen device can sign while it is held for `heldForMs`:
    the spend limit once per started window. -/
def theftExposure (heldForMs limit windowMs : Int) : Int :=
  limit * (max 0 heldForMs / windowMs + 1)

end Vadum
