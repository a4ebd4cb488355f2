import ScriptTree.Activation
import ScriptTree.Construction
import ScriptTree.Conversion
import ScriptTree.Creation
import ScriptTree.Diagnostics
import ScriptTree.Equality
import ScriptTree.Eval
import ScriptTree.Expression
import ScriptTree.Expression.Arguments
import ScriptTree.Expression.Assignment
import ScriptTree.Expression.Naming
import ScriptTree.Expression.ObjectLiteral
import ScriptTree.Fault
import ScriptTree.Hoisting
import ScriptTree.Interpreter
import ScriptTree.Json
import ScriptTree.Json.Text
import ScriptTree.Library
import ScriptTree.Library.Errors
import ScriptTree.Library.Objects
import ScriptTree.Library.Wrappers
import ScriptTree.Machine
import ScriptTree.Number.Arithmetic
import ScriptTree.Number.Binary
import ScriptTree.Number.Decimal
import ScriptTree.Number.Numeral
import ScriptTree.Number.Radix
import ScriptTree.Number.Text
import ScriptTree.Object
import ScriptTree.Operator
import ScriptTree.Proofs.Accessors
import ScriptTree.Proofs.Actions
import ScriptTree.Proofs.ArrayLikes
import ScriptTree.Proofs.Boxes
import ScriptTree.Proofs.CallStack
import ScriptTree.Proofs.Calls
import ScriptTree.Proofs.CompoundAssignment
import ScriptTree.Proofs.Console
import ScriptTree.Proofs.ConversionOrder
import ScriptTree.Proofs.Decimals
import ScriptTree.Proofs.DepthLimit
import ScriptTree.Proofs.Discipline
import ScriptTree.Proofs.DistinctKeys
import ScriptTree.Proofs.Doubles
import ScriptTree.Proofs.ExactArithmetic
import ScriptTree.Proofs.Expressions
import ScriptTree.Proofs.Finalizers
import ScriptTree.Proofs.FlatSwitch
import ScriptTree.Proofs.Fuel
import ScriptTree.Proofs.HoistedNames
import ScriptTree.Proofs.IndexKeys
import ScriptTree.Proofs.Inertness
import ScriptTree.Proofs.Instances
import ScriptTree.Proofs.Integers
import ScriptTree.Proofs.Kinds
import ScriptTree.Proofs.Likeness
import ScriptTree.Proofs.Links
import ScriptTree.Proofs.LooseEquality
import ScriptTree.Proofs.Nearest
import ScriptTree.Proofs.NearestBinding
import ScriptTree.Proofs.NumberText
import ScriptTree.Proofs.NumeralValues
import ScriptTree.Proofs.ObjectSpread
import ScriptTree.Proofs.OperatorSpellings
import ScriptTree.Proofs.Operators
import ScriptTree.Proofs.Origin
import ScriptTree.Proofs.Propagation
import ScriptTree.Proofs.Properties
import ScriptTree.Proofs.ReadBack
import ScriptTree.Proofs.References
import ScriptTree.Proofs.RoundTrip
import ScriptTree.Proofs.Rounding
import ScriptTree.Proofs.Runs
import ScriptTree.Proofs.ScopeFrame
import ScriptTree.Proofs.SimulatedExpressions
import ScriptTree.Proofs.SimulatedStatements
import ScriptTree.Proofs.SimulatedValues
import ScriptTree.Proofs.Simulation
import ScriptTree.Proofs.Spellings
import ScriptTree.Proofs.Statements
import ScriptTree.Proofs.Stores
import ScriptTree.Proofs.Support
import ScriptTree.Proofs.Syntax
import ScriptTree.Proofs.TableEdits
import ScriptTree.Proofs.Termination
import ScriptTree.Proofs.Traces
import ScriptTree.Proofs.VarDeclarations
import ScriptTree.Proofs.Walks
import ScriptTree.Proofs.Words
import ScriptTree.Proofs.WrittenTrees
import ScriptTree.Property
import ScriptTree.Realm
import ScriptTree.Runner
import ScriptTree.Session
import ScriptTree.Statement
import ScriptTree.Table
import ScriptTree.Text
import ScriptTree.Tree
import ScriptTree.Tree.Names
import ScriptTree.Tree.Reader
import ScriptTree.Value
