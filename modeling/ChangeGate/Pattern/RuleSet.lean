import ChangeGate.Glob.Matcher
import ChangeGate.Pattern.Entry

/-! # Rule sets

A **rule** is a compiled glob that includes or excludes, and a **rule set** is a list of rules. A path
starts out included only when no rule includes; every rule that matches then overwrites the decision,
so the last matching rule decides. -/

namespace ChangeGate

variable [Glob.Engine]

/-- A compiled pattern. -/
structure Rule where
  /-- The glob without its sign. -/
  glob : Text
  /-- Whether the paths that match are excluded. -/
  negated : Bool
  /-- The matcher of the glob. -/
  matcher : Glob.Matcher
  /-- The matcher was compiled from the glob. -/
  compiled : Glob.compile glob = .ok matcher

namespace Rule

/-- The rule of a glob and a sign. -/
def ofGlob (negated : Bool) (glob : Text) : Except Glob.TooLarge Rule :=
  match h : Glob.compile glob with
  | .ok matcher => .ok ⟨glob, negated, matcher, h⟩
  | .error e => .error e

/-- The rule of an entry of a pattern list. -/
def ofEntry (entry : Text) : Except Glob.TooLarge Rule :=
  ofGlob (Pattern.sign entry).1 (Pattern.sign entry).2

/-- Whether a rule matches a whole path. -/
def accepts (r : Rule) (path : Text) : Bool := r.matcher.accepts path

end Rule

/-- Rules in the order of their declaration. -/
structure RuleSet where
  rules : List Rule

namespace RuleSet

/-- The rules of entries; the first entry that cannot be compiled is the error. -/
def ofEntries (entries : List Text) : Except Glob.TooLarge RuleSet :=
  (entries.mapM Rule.ofEntry).map RuleSet.mk

/-- The rules of a pattern list. -/
def ofText (t : Text) : Except Glob.TooLarge RuleSet := ofEntries (Pattern.entries t)

/-- Whether some rule includes. -/
def hasInclusion (rs : RuleSet) : Bool := rs.rules.any fun r => !r.negated

/-- The number of rules that exclude. -/
def exclusions (rs : RuleSet) : Nat := rs.rules.countP (·.negated)

/-- The decision after one rule. -/
def overwrite (path : Text) (included : Bool) (r : Rule) : Bool :=
  if r.accepts path then !r.negated else included

/-- Whether a path is included: by default only if no rule includes, and then as the last matching
rule says. -/
def includes (rs : RuleSet) (path : Text) : Bool :=
  rs.rules.foldl (overwrite path) !rs.hasInclusion

/-- Whether some path of a list is included. -/
def includesAny (rs : RuleSet) (paths : List Text) : Bool := paths.any rs.includes

/-- The included paths of a list, in order. -/
def included (rs : RuleSet) (paths : List Text) : List Text := paths.filter rs.includes

end RuleSet

end ChangeGate
