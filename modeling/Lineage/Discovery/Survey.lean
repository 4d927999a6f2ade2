import Lineage.Discovery.Group
import Lineage.Fault
import Lineage.Index

/-!
# Surveys of the API

A survey asks for every group in turn, the core group first.  What it finds is
committed as one index.  A group of which nothing could be learnt keeps the
mappings that it had in the index before; a survey that learns nothing at all
commits nothing.  Before the first commit no lookup is answered.
-/

namespace Lineage

/-- What a survey learnt of a group. -/
structure GroupOutcome where
  group : String
  found : Except GroupFault (List Mapping)

/-- Why a survey commits nothing. -/
inductive SurveyFault where
  | noGroupList (fault : ClientFault)
  | allFailed (groups : Nat)
  deriving DecidableEq, Repr

namespace SurveyFault

def message : SurveyFault → String
  | noGroupList _ => "Failed to list API groups"
  | allFailed groups => "discovery failed for all " ++ Natural.render groups ++ " API groups"

end SurveyFault

namespace GroupOutcome

/-- Whether nothing was learnt of a group. -/
def isFailed (outcome : GroupOutcome) : Bool :=
  match outcome.found with
  | .ok _ => false
  | .error _ => true

/-- The mappings of a group after a survey: those that it found, or else those
of the index before. -/
def mappings (previous : Option Index) (outcome : GroupOutcome) : List Mapping :=
  match outcome.found, previous with
  | .ok mappings, _ => mappings
  | .error _, some index => index.group outcome.group
  | .error _, none => []

end GroupOutcome

namespace Discovery

variable {σ : Type}

/-- The groups of a survey: the core group and those that the server lists. -/
def surveyed (listed : List GroupEntry) : List GroupEntry :=
  ⟨coreGroup, [], none⟩ :: listed

/-- Asks for one group after another. -/
def survey (api : Api σ) : List GroupEntry → StateM σ (List GroupOutcome)
  | [] => return []
  | entry :: others => do
    let found ← group api entry
    return ⟨entry.name, found⟩ :: (← survey api others)

/-- The index that a survey commits. -/
def commit (previous : Option Index) (outcomes : List GroupOutcome) : Except SurveyFault Index :=
  if outcomes.all GroupOutcome.isFailed then .error (.allFailed outcomes.length)
  else .ok (Index.ofList (outcomes.flatMap (GroupOutcome.mappings previous)))

/-- Surveys the API and gives the index to be committed. -/
def refresh (api : Api σ) (previous : Option Index) : StateM σ (Except SurveyFault Index) := do
  match ← api.fetch Catalogue.groups? "/apis" with
  | .error fault => return .error (.noGroupList fault)
  | .ok listed => return commit previous (← survey api (surveyed listed))

/-- The index in force after a survey. -/
def committed (previous : Option Index) (outcome : Except SurveyFault Index) : Option Index :=
  match outcome with
  | .ok index => some index
  | .error _ => previous

/-- The mappings that serve a group and a kind, once there is an index. -/
def lookup (index? : Option Index) (group kind : String) : Except Cause (List Mapping) :=
  match index? with
  | some index => .ok (index.lookup group kind)
  | none => .error .discoveryPending

end Discovery

end Lineage
