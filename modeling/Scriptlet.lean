import Scriptlet.World
import Scriptlet.Main
import Scriptlet.Proofs.Printing.RoundTrip
import Scriptlet.Proofs.Noninterference
import Scriptlet.Proofs.Lexeme
import Scriptlet.Proofs.Lexeme.Cover
import Scriptlet.Proofs.Lexeme.Alternatives
import Scriptlet.Proofs.Recall
import Scriptlet.Proofs.Staging
import Scriptlet.Proofs.Plan
import Scriptlet.Proofs.Moment
import Scriptlet.Proofs.Blame
import Scriptlet.Proofs.CallDepth
import Scriptlet.Proofs.CallLimit
import Scriptlet.Proofs.StrayReturn
import Scriptlet.Proofs.Plan.Outward
import Scriptlet.Proofs.Plan.Repertoire
import Scriptlet.Proofs.Transcript
import Scriptlet.Proofs.Grammar.Transport
import Scriptlet.Proofs.Lexeme.Seam
import Scriptlet.Proofs.Lexeme.Breaks
import Scriptlet.Proofs.Separators
import Scriptlet.Proofs.Grammar.Extension
import Scriptlet.Proofs.Joining.Text
import Scriptlet.Proofs.Joining.Carried
import Scriptlet.Proofs.Joining.Run
import Scriptlet.Proofs.Joining.Tags
import Scriptlet.Proofs.Joining
import Scriptlet.Proofs.Disk
import Scriptlet.Proofs.Requests
import Scriptlet.Proofs.Change
import Scriptlet.Proofs.FileSystem
import Scriptlet.Proofs.Confinement
import Scriptlet.Proofs.Journal
import Scriptlet.Proofs.LogFile
import Scriptlet.Proofs.Records
import Scriptlet.Proofs.Stages
import Scriptlet.Proofs.Fuel
import Scriptlet.Proofs.Session.Input
import Scriptlet.Proofs.Session.Feed
import Scriptlet.Proofs.Session
import Scriptlet.Proofs.Lexeme.Positions
import Scriptlet.Proofs.Pointing
import Scriptlet.Proofs.Nesting
import Scriptlet.Proofs.Descent
import Scriptlet.Proofs.Descent.Following
import Scriptlet.Proofs.Descent.Expressions
import Scriptlet.Proofs.Descent.Statements
import Scriptlet.Proofs.Nesting.Limit
import Scriptlet.Proofs.Completion
import Scriptlet.Proofs.Completion.Earliest
import Scriptlet.Proofs.Renaming.Words
import Scriptlet.Proofs.Padding
import Scriptlet.Proofs.Height.Recursion
import Scriptlet.Proofs.Activation
import Scriptlet.Proofs.SourceOrder
import Scriptlet.Proofs.Arithmetic
import Scriptlet.Proofs.Comparison
import Scriptlet.Proofs.ReadBack
import Scriptlet.Proofs.Lexeme.Returns
import Scriptlet.Proofs.Literal
import Scriptlet.Proofs.Descent.Taking
import Scriptlet.Proofs.FinalEnd
import Scriptlet.Proofs.Chronicle
import Scriptlet.Proofs.Chronicle.Members
import Scriptlet.Proofs.Definedness
