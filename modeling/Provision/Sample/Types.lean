import Provision.Host.Basic

/-!
# Types of the sample package

The tier of a widget, the status that the engine reports for one, and the description that the
method `describe` returns.
-/

namespace Provision

namespace Sample

inductive Tier where
  | standard
  | premium
  deriving DecidableEq, Repr

def Tier.text : Tier → String
  | .standard => "standard"
  | .premium => "premium"

/-- Tiers as a type of properties; a missing one is `standard`. -/
def tierType : HostType :=
  .enum
    { name := "Tier", backing := .string
      members := [Tier.standard, Tier.premium].map fun tier => (tier.text, .text tier.text)
      default? := some Tier.standard.text, refusal := .notMember }

/-- The record that the engine reports as a widget's status. -/
def statusType : HostType := .record "WidgetStatus"

/-- The record that `describe` returns. -/
def descriptionType : HostType := .record "WidgetDescription"

def records : HostRecords :=
  [("WidgetStatus",
      [⟨"ready", "ready", .bool⟩, ⟨"replicas", "replicaCount", .int⟩]),
   ("WidgetDescription", [⟨"description", "description", .string⟩])]

def schema (type : HostType) : Schema := ⟨type, records⟩

end Sample

end Provision
