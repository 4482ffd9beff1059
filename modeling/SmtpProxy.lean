import SmtpProxy.Adminapi.Bootstrap
import SmtpProxy.Adminapi.DisabledUser
import SmtpProxy.Adminapi.LastAdmin
import SmtpProxy.Adminapi.PasswordChange
import SmtpProxy.Adminapi.Secrecy
import SmtpProxy.Adminapi.SignInRace
import SmtpProxy.Adminapi.StoredRules
import SmtpProxy.Adminauth.Oidc
import SmtpProxy.Adminauth.SessionLife
import SmtpProxy.App.DefaultMailbox
import SmtpProxy.App.StoredAddress
import SmtpProxy.App.StoredText
import SmtpProxy.Config.Document
import SmtpProxy.Oauth.Provider
import SmtpProxy.Oauth.Redact
import SmtpProxy.Policy.Patterns
import SmtpProxy.Queue.Attempts
import SmtpProxy.Queue.Concurrency
import SmtpProxy.Queue.CurrentClaim
import SmtpProxy.Queue.Custody
import SmtpProxy.Queue.Dispatch
import SmtpProxy.Queue.ErrorFields
import SmtpProxy.Queue.Pacing
import SmtpProxy.Queue.Retention
import SmtpProxy.Queue.RetryTimes
import SmtpProxy.Smtpsrv.FromGuard
import SmtpProxy.Smtpsrv.Greeting
import SmtpProxy.Smtpsrv.Listeners
import SmtpProxy.Smtpsrv.ProxyHeader
import SmtpProxy.Smtpsrv.Reassembly
import SmtpProxy.Smtpsrv.SizeLimit
import SmtpProxy.Store.Lockout
import SmtpProxy.Store.Migrate
import SmtpProxy.Store.Script
import SmtpProxy.Store.Search
import SmtpProxy.Transport.Recipients
import SmtpProxy.Transport.Transaction
