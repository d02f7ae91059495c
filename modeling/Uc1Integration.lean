import Uc1Integration.Interaction.StreamLoops
import Uc1Integration.Interaction.Link
import Uc1Integration.Interaction.FailingLink
import Uc1Integration.Interaction.Runs
import Uc1Integration.Interaction.MailboxTimely
import Uc1Integration.Transport.Challenge
import Uc1Integration.Tee.ReturnCodes
import Uc1Integration.Tee.WrittenReplies
import Uc1Integration.Tee.Bounds
import Uc1Integration.Tee.Refinement
import Uc1Integration.TlsClient.Responses
import Uc1Integration.TlsClient.FunctionIds
import Uc1Integration.Build.Images
import Uc1Integration.Transport.Schedule
import Uc1Integration.Transport.Agreement
import Uc1Integration.Transport.ReadErrors
import Uc1Integration.Transport.Reference
import Uc1Integration.Transport.Acknowledged
import Uc1Integration.Tee.Headers
import Uc1Integration.Tee.Sessions
import Uc1Integration.TlsClient.Ownership
import Uc1Integration.TlsClient.Balance
import Uc1Integration.Scripts.HandlerLogProperties
import Uc1Integration.Echo.LineSplitting
import Uc1Integration.Echo.Echoes
import Uc1Integration.Tee.RawBounds
import Uc1Integration.TlsClient.EndToEnd
import Uc1Integration.TlsClient.ReturnCode
import Uc1Integration.Echo.CheckEchoVerdicts
import Uc1Integration.Echo.HelloAt
import Uc1Integration.Build.Isolation
import Uc1Integration.Build.Entries
import Uc1Integration.TlsClient.HeapSafety
