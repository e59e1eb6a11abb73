import BaseLib.Main
import BaseLib.Proofs.Bytes.Records
import BaseLib.Proofs.Bytes.Stream
import BaseLib.Proofs.Bytes.Writers
import BaseLib.Proofs.Calendar.Arithmetic
import BaseLib.Proofs.Calendar.Durations
import BaseLib.Proofs.Calendar.Sortable
import BaseLib.Proofs.Collection.Dictionary
import BaseLib.Proofs.Collection.Edits
import BaseLib.Proofs.Collection.LiveView
import BaseLib.Proofs.Collection.Members
import BaseLib.Proofs.Collection.SelfAppend
import BaseLib.Proofs.Collection.Snapshot
import BaseLib.Proofs.Enumeration.Cursors
import BaseLib.Proofs.Enumeration.Extremes
import BaseLib.Proofs.Enumeration.Laziness
import BaseLib.Proofs.Enumeration.Phases
import BaseLib.Proofs.Event.Scripted
import BaseLib.Proofs.Number.Conversion
import BaseLib.Proofs.Number.Display
import BaseLib.Proofs.Number.Permissive
import BaseLib.Proofs.Number.Picture
import BaseLib.Proofs.Number.Radix
import BaseLib.Proofs.Number.RoundedText
import BaseLib.Proofs.Number.TryParse
import BaseLib.Proofs.Regex.ExplicitCapture
import BaseLib.Proofs.Regex.Join
import BaseLib.Proofs.Regex.Layout
import BaseLib.Proofs.Regex.Meanings
import BaseLib.Proofs.Regex.Tokens
import BaseLib.Proofs.Session.Equality
import BaseLib.Proofs.Session.Interlocked
import BaseLib.Proofs.Session.Misuse
import BaseLib.Proofs.Surface.Arguments
import BaseLib.Proofs.Surface.References
import BaseLib.Proofs.Text.Expansion
import BaseLib.Proofs.Text.FirstPlace
import BaseLib.Proofs.Text.Order
import BaseLib.Proofs.Text.Reader
import BaseLib.Proofs.Text.RollingHash
import BaseLib.Proofs.Text.Showing
import BaseLib.Proofs.Text.WrittenLines
import BaseLib.Script.Step
