import OutboxPublisher.Webhook.Authenticity
import OutboxPublisher.Webhook.Window
import OutboxPublisher.Webhook.Layout
import OutboxPublisher.Webhook.Leakage
import OutboxPublisher.Derive.Grammar
import OutboxPublisher.Webhook.Digest
import OutboxPublisher.Webhook.Extractor
import OutboxPublisher.Webhook.Probing
import OutboxPublisher.Interaction.Program
import OutboxPublisher.Publisher.Batch
import OutboxPublisher.Publisher.Refusal
import OutboxPublisher.Publisher.Context
import OutboxPublisher.Publisher.Duplicate
import OutboxPublisher.Publisher.Atomicity
import OutboxPublisher.Publisher.RoundTrip
import OutboxPublisher.Publisher.Cutting
import OutboxPublisher.Publisher.Recording
import OutboxPublisher.Publisher.Dropped
import OutboxPublisher.Concurrent.Cursor
import OutboxPublisher.Concurrent.Idempotent
import OutboxPublisher.Concurrent.Constraints
import OutboxPublisher.Concurrent.Log
import OutboxPublisher.Concurrent.Notify
import OutboxPublisher.Concurrent.Fresh
import OutboxPublisher.Concurrent.Deadlock
import OutboxPublisher.Concurrent.Order
import OutboxPublisher.Concurrent.Serial
import OutboxPublisher.Concurrent.Solo
import OutboxPublisher.Derive.Expand
import OutboxPublisher.Derive.Diagnostics
import OutboxPublisher.Delivery
