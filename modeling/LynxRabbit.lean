import LynxRabbit.Amqp.Broker
import LynxRabbit.Amqp.Custody
import LynxRabbit.Amqp.Topology
import LynxRabbit.Client.Connections
import LynxRabbit.Client.DialAddress
import LynxRabbit.Client.DialUrl
import LynxRabbit.Client.Dispatch
import LynxRabbit.Client.Frames
import LynxRabbit.Client.Lifecycle
import LynxRabbit.Client.Moves
import LynxRabbit.Client.Publish
import LynxRabbit.Client.Reconnect
import LynxRabbit.Client.Setup
import LynxRabbit.Client.State
import LynxRabbit.Client.System
import LynxRabbit.Conf.Accepted
import LynxRabbit.Conf.Config
import LynxRabbit.Conf.Normalize
import LynxRabbit.Conf.Validate
import LynxRabbit.Goroutines.Ledger
import LynxRabbit.Goroutines.Order
import LynxRabbit.Goroutines.Pool
import LynxRabbit.Goroutines.Progress
import LynxRabbit.Goroutines.Tasks
import LynxRabbit.Metrics.Concurrent
import LynxRabbit.Metrics.Export
import LynxRabbit.Metrics.Lifecycle
import LynxRabbit.Net.Escape
import LynxRabbit.Net.RoundTrip
import LynxRabbit.Net.Url
import LynxRabbit.Prometheus.Format
import LynxRabbit.Publishing.Calls
import LynxRabbit.Publishing.Confirms
import LynxRabbit.Publishing.First
import LynxRabbit.Publishing.Ready
import LynxRabbit.Publishing.Service
import LynxRabbit.Reconnection.Agreement
import LynxRabbit.Reconnection.Flag
import LynxRabbit.Reconnection.Health
import LynxRabbit.Reconnection.HealthChecker
import LynxRabbit.Reconnection.Leaks
import LynxRabbit.Reconnection.Pacing
import LynxRabbit.Reconnection.Progress
import LynxRabbit.Reconnection.Recovery
import LynxRabbit.Reconnection.Stop
import LynxRabbit.Reconnection.Watch
import LynxRabbit.Retry.Backoff
import LynxRabbit.Retry.DoWithRetry
import LynxRabbit.Runs.Account
import LynxRabbit.Runs.Machine
import LynxRabbit.Runs.Pool
import LynxRabbit.Runs.RWMutex
import LynxRabbit.Runs.Sections
import LynxRabbit.Runs.Trace
import LynxRabbit.Setup.Channels
import LynxRabbit.Setup.Declared
import LynxRabbit.Setup.Normalized
import LynxRabbit.Setup.Ownership
import LynxRabbit.Setup.Run
import LynxRabbit.Setup.Topology
import LynxRabbit.Shutdown.Converge
import LynxRabbit.Shutdown.Drain
import LynxRabbit.Shutdown.Final
import LynxRabbit.Shutdown.Lifetime
import LynxRabbit.Shutdown.NilConnection
import LynxRabbit.Startup.Contract
import LynxRabbit.Subscriptions.Agree
import LynxRabbit.Subscriptions.AtLeastOnce
import LynxRabbit.Subscriptions.Calls
import LynxRabbit.Subscriptions.Cancelled
import LynxRabbit.Subscriptions.Deliveries
import LynxRabbit.Subscriptions.Duplicates
import LynxRabbit.Subscriptions.Failed
import LynxRabbit.Subscriptions.Flow
import LynxRabbit.Subscriptions.Names
import LynxRabbit.Subscriptions.OwnChannel
import LynxRabbit.Subscriptions.Redelivery
import LynxRabbit.Subscriptions.Restart
import LynxRabbit.Subscriptions.Settings
