import Agenda.Concurrent
import Agenda.Draft
import Agenda.Lock.Workers
import Agenda.Main
import Agenda.Operation
import Agenda.Proofs.Concurrent.Lone
import Agenda.Proofs.Database.Blocks
import Agenda.Proofs.Database.Expansion
import Agenda.Proofs.Database.Orders
import Agenda.Proofs.Database.Walks
import Agenda.Proofs.History.Agreement
import Agenda.Proofs.History.Closed
import Agenda.Proofs.History.Creation
import Agenda.Proofs.History.Dates
import Agenda.Proofs.History.Independence
import Agenda.Proofs.History.Integrity
import Agenda.Proofs.History.Interrupted
import Agenda.Proofs.History.Keeping
import Agenda.Proofs.History.Places
import Agenda.Proofs.History.Queries
import Agenda.Proofs.History.Reach
import Agenda.Proofs.History.Receipts
import Agenda.Proofs.History.Separation
import Agenda.Proofs.History.Statuses
import Agenda.Proofs.Lock.Accounts
import Agenda.Proofs.Lock.Undisturbed
import Agenda.Proofs.Outline
import Agenda.Proofs.Settings.Defaults
import Agenda.Store.Catalog
import Agenda.Proofs.Draft
