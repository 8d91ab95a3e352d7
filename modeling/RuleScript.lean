import RuleScript.Main
import RuleScript.Proofs.Acceptance
import RuleScript.Proofs.Beforehand
import RuleScript.Proofs.Binding
import RuleScript.Proofs.Blame
import RuleScript.Proofs.Chronicle
import RuleScript.Proofs.Coherence
import RuleScript.Proofs.Completion
import RuleScript.Proofs.Concatenation
import RuleScript.Proofs.Course
import RuleScript.Proofs.Coverage
import RuleScript.Proofs.Cutting
import RuleScript.Proofs.Declarable
import RuleScript.Proofs.Draining
import RuleScript.Proofs.Escape
import RuleScript.Proofs.Exactness
import RuleScript.Proofs.Extent
import RuleScript.Proofs.Footprint
import RuleScript.Proofs.Hints
import RuleScript.Proofs.History
import RuleScript.Proofs.Invocation
import RuleScript.Proofs.Isolation
import RuleScript.Proofs.Iteration
import RuleScript.Proofs.Layout
import RuleScript.Proofs.Ledger
import RuleScript.Proofs.Lexing
import RuleScript.Proofs.LineColumn
import RuleScript.Proofs.Locality
import RuleScript.Proofs.Node
import RuleScript.Proofs.Overflow
import RuleScript.Proofs.Pointing
import RuleScript.Proofs.Precedence
import RuleScript.Proofs.Production
import RuleScript.Proofs.Provenance
import RuleScript.Proofs.Raising
import RuleScript.Proofs.Ranking
import RuleScript.Proofs.Recursion
import RuleScript.Proofs.Rendering
import RuleScript.Proofs.Reordering
import RuleScript.Proofs.Reparsing
import RuleScript.Proofs.Resolution
import RuleScript.Proofs.Spending
import RuleScript.Proofs.Startup
import RuleScript.Proofs.StaticScope
import RuleScript.Proofs.Supply
import RuleScript.Proofs.Taking
import RuleScript.Proofs.Tiling
import RuleScript.Proofs.Truncation
import RuleScript.Proofs.Unclosed
import RuleScript.Proofs.Undashed
import RuleScript.Proofs.Unreached
import RuleScript.Proofs.WellFormed
