import SmtpClient.Network.Connection
import SmtpClient.Proofs.Acceptance
import SmtpClient.Proofs.Challenge
import SmtpClient.Proofs.Closing
import SmtpClient.Proofs.CommandLog
import SmtpClient.Proofs.Confidential
import SmtpClient.Proofs.DataWindow
import SmtpClient.Proofs.Discipline
import SmtpClient.Proofs.Draining
import SmtpClient.Proofs.Handshake
import SmtpClient.Proofs.Identity
import SmtpClient.Proofs.LineLimit
import SmtpClient.Proofs.Matching
import SmtpClient.Proofs.MessageSize
import SmtpClient.Proofs.PasswordTiming
import SmtpClient.Proofs.SavedSettings
import SmtpClient.Proofs.Secrecy
import SmtpClient.Proofs.Termination
import SmtpClient.Proofs.Unnoticed
import SmtpClient.Proofs.Unreached
import SmtpClient.Proofs.Verdict
import SmtpClient.Proofs.WrittenReply
import SmtpClient.Settings.Draft
import SmtpClient.Settings.Saved
