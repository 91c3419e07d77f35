import ScriptTags.FileTree.Listing
import ScriptTags.Main
import ScriptTags.Proofs.Command.Effect
import ScriptTags.Proofs.Command.Rendering
import ScriptTags.Proofs.Discovery.Exact
import ScriptTags.Proofs.Discovery.Switches
import ScriptTags.Proofs.FileTree.Frame
import ScriptTags.Proofs.FileTree.LeadsTo
import ScriptTags.Proofs.Output.ShortWrites
import ScriptTags.Proofs.Run.Ending
import ScriptTags.Proofs.Run.FileField
import ScriptTags.Proofs.Run.Fold
import ScriptTags.Proofs.Run.OwnTags
import ScriptTags.Proofs.Run.Recursive
import ScriptTags.Proofs.Run.Rerun
import ScriptTags.Proofs.Run.TagLines
import ScriptTags.Proofs.Run.Variables
import ScriptTags.Proofs.Script.Counter
import ScriptTags.Proofs.Script.Coverage
import ScriptTags.Proofs.Script.Exclusive
import ScriptTags.Proofs.Script.LineEnd
import ScriptTags.Proofs.Script.Location
import ScriptTags.Proofs.Script.Requests
import ScriptTags.Proofs.Script.Separation
import ScriptTags.Proofs.Tag.Escape
import ScriptTags.Proofs.Tag.Order
import ScriptTags.Proofs.Tag.Reading
