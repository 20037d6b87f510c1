import ArithService.Database.Maintenance
import ArithService.Database.Medium
import ArithService.Dispatch.Dispatcher
import ArithService.Http.Api
import ArithService.Http.Uri
import ArithService.Main
import ArithService.Proofs.Config.Safety
import ArithService.Proofs.Database.Corruption
import ArithService.Proofs.Database.Draining
import ArithService.Proofs.Database.Failures
import ArithService.Proofs.Database.Interruption
import ArithService.Proofs.Database.Leases
import ArithService.Proofs.Database.Stranding
import ArithService.Proofs.Dispatch.Paths
import ArithService.Proofs.Dispatch.Safety
import ArithService.Proofs.Expression.Decoding
import ArithService.Proofs.Expression.Operands
import ArithService.Proofs.Expression.Validation
import ArithService.Proofs.Http.Accounts
import ArithService.Proofs.Http.Privacy
import ArithService.Proofs.Http.Submission
import ArithService.Proofs.Store.Agreement
import ArithService.Proofs.Wire.Compatibility
import ArithService.Shutdown
import ArithService.Startup
import ArithService.Store.Memory
import ArithService.Proofs.Time.Fidelity
import ArithService.Proofs.Dispatch.Assignment
import ArithService.Proofs.Auth.PasswordKey
import ArithService.Proofs.Config.Independence
import ArithService.Proofs.Http.Passwords
import ArithService.Proofs.Shutdown
import ArithService.Proofs.Task.Counter
import ArithService.Proofs.Expression.OperatorStack
