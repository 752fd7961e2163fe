import Statewalk.Session.Outlet
import Statewalk.Session.Rules
import Statewalk.Session.Subject

/-! # The listeners of a session

Statistics, listeners that do nothing, rule listeners and reporters.
-/

namespace Statewalk

/-- A listener of a session. -/
inductive Observer where
  | statistics (l : Statistics)
  /-- Does nothing. -/
  | idle (name : String)
  | rules (l : RuleListener Subject)
  | reporter (l : Reporter Outlet)

instance : Named Observer where
  name
    | .statistics l => Named.name l
    | .idle name => name
    | .rules l => Named.name l
    | .reporter l => Named.name l

instance {E : Type} [Engine E] : Listener E Subject Observer where
  hear event := fun (l, r) =>
    match l with
    | .statistics l => zoom .statistics l (Listener.hear event) r
    | .idle name => .ok () (.idle name, r)
    | .rules l => zoom .rules l (Listener.hear event) r
    | .reporter l => zoom .reporter l (Listener.hear event) r

end Statewalk
