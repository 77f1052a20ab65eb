import Tellm.Lib.Runs
import Tellm.Lib.Tasks
import Tellm.Access
import Tellm.Pairing
import Tellm.BruteForce
import Tellm.Generations
import Tellm.Persistence
import Tellm.Handlers
import Tellm.AccessRace
import Tellm.ModelTurn
import Tellm.Replay
import Tellm.Dispatch
import Tellm.Delivery
import Tellm.Abandoned
import Tellm.Anthropic
import Tellm.Commands
import Tellm.Credentials
import Tellm.MarkdownAgreement
import Tellm.Sending
import Tellm.Polling
import Tellm.Retained
import Tellm.FailedTurn
import Tellm.Tracking
import Tellm.Capabilities
import Tellm.Lib.Spelling
import Tellm.Markup
import Tellm.Injection
import Tellm.Fenced
import Tellm.JsonSize
import Tellm.Endpoint
import Tellm.Prompts
import Tellm.Lib.Custody
import Tellm.Serve
import Tellm.Atomic
import Tellm.Durable
import Tellm.Lib.Tables
import Tellm.Saved
import Tellm.Stored
import Tellm.Lib.Files
import Tellm.Lib.Views
import Tellm.Chats
import Tellm.Shutdown
import Tellm.Delivered
import Tellm.FirstRun
import Tellm.Lib.Http
import Tellm.Unload
import Tellm.Lib.Budget
import Tellm.Revoked
