import LimitBook.Announcement
import LimitBook.Event.Script
import LimitBook.Format.Config
import LimitBook.Format.Feed
import LimitBook.Format.Report
import LimitBook.Main
import LimitBook.Proofs.Queue
import LimitBook.Proofs.Level
import LimitBook.Proofs.BookSide
import LimitBook.Proofs.OrderBook
import LimitBook.Proofs.OrderBook.Operations
import LimitBook.Proofs.OrderBook.Sweep
import LimitBook.Proofs.OrderBook.Allocation
import LimitBook.Proofs.OrderBook.Uncrossed
import LimitBook.Proofs.Book
import LimitBook.Proofs.Book.Run
import LimitBook.Proofs.OrderBook.Reachable
import LimitBook.Proofs.Book.Invariants
import LimitBook.Proofs.Book.InPlace
import LimitBook.Proofs.Book.Refusal
import LimitBook.Proofs.Queue.Precedence
import LimitBook.Proofs.OrderBook.Trades
import LimitBook.Proofs.OrderBook.Settlement
import LimitBook.Proofs.Book.Lifetime
import LimitBook.Proofs.Reference
import LimitBook.Proofs.Reference.Queues
import LimitBook.Proofs.Reference.Trades
import LimitBook.Proofs.Reference.Simulation
import LimitBook.Proofs.Book.Accounting
import LimitBook.Proofs.Book.Priority
import LimitBook.Proofs.Book.Fingerprint
import LimitBook.Proofs.Json.Codec
import LimitBook.Proofs.Json.Record
import LimitBook.Proofs.Announcement
import LimitBook.Proofs.Json.Lexer
import LimitBook.Proofs.Json.Layout
import LimitBook.Proofs.Json.Grammar
import LimitBook.Proofs.Json.Draft
import LimitBook.Proofs.Json.Readable
import LimitBook.Proofs.Json.Record.Written
import LimitBook.Proofs.Announcement.Written
import LimitBook.Proofs.Json.RoundTrip
import LimitBook.Proofs.Format.RoundTrip
import LimitBook.Proofs.Registry.InPlace
import LimitBook.Proofs.Registry.Step
import LimitBook.Proofs.Registry.History
import LimitBook.Proofs.Replay
import LimitBook.Proofs.Lane
import LimitBook.Proofs.Lane.Mailbox
import LimitBook.Proofs.Lane.Subscriber
import LimitBook.Proofs.Lane.Serial
import LimitBook.Proofs.Book.History
import LimitBook.Proofs.Book.Statistics
import LimitBook.Proofs.Book.Sequencing
import LimitBook.Proofs.Mirror
import LimitBook.Proofs.Mirror.OrderBook
import LimitBook.Proofs.Mirror.Book
import LimitBook.Proofs.Book.Allocation
import LimitBook.Proofs.OrderBook.Withdrawal
import LimitBook.Proofs.Book.Withdrawal
import LimitBook.Proofs.Book.Census
import LimitBook.Proofs.Book.Ladder
import LimitBook.Proofs.Book.Splitting
import LimitBook.Proofs.OrderBook.Queries
import LimitBook.Proofs.Book.Arrival
import LimitBook.Proofs.Guarded
import LimitBook.Proofs.Guarded.Book
import LimitBook.Proofs.Book.Words
import LimitBook.Proofs.Replay.Layout
import LimitBook.Proofs.Replay.Counters
import LimitBook.Proofs.Announcement.Assignment
import LimitBook.Proofs.Announcement.Refusal
import LimitBook.Proofs.Redrawing
import LimitBook.Proofs.Redrawing.OrderBook
import LimitBook.Proofs.Masked
import LimitBook.Proofs.Masked.Book
import LimitBook.Proofs.Digest.FillRoot
import LimitBook.Proofs.Config
import LimitBook.Proofs.Registry.Opening
