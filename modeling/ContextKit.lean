import ContextKit.Transition.Run
import ContextKit.Transition.Alternate
import ContextKit.Variant
import ContextKit.Subscriber.Provider
import ContextKit.Subscriber.Bookkeeping
import ContextKit.Subscriber.ValueCache
import ContextKit.Subscriber.Account
import ContextKit.Subscriber.Answers
import ContextKit.Subscriber.HandleIntent
import ContextKit.Subscriber.Waiting
import ContextKit.Provider.Overhearing
import ContextKit.Subscriber.BlockingWait
import ContextKit.Subscriber.ContextProperty
import ContextKit.Subscriber.PluginCalls
import ContextKit.Subscriber.Renewal
import ContextKit.Collections.Multimap
import ContextKit.Provider.Group
import ContextKit.Provider.Reemission
import ContextKit.Registry.ContextPropertyInfo
import ContextKit.Registry.DirectoryWatch
import ContextKit.Registry.InfoCdbBackend
import ContextKit.Registry.Introspection
import ContextKit.Registry.UpdateContextProviders
import ContextKit.Subscriber.Reevaluation
import ContextKit.Types.ContextTypeInfo
import ContextKit.Types.DumpRoundTrip
import ContextKit.Types.EnumTypes
import ContextKit.Provider.CommandWatcher
import ContextKit.Provider.ServiceBackend
import ContextKit.Registry.OldTypeNames
import ContextKit.Subscriber.CommanderLink
import ContextKit.Subscriber.Completion
import ContextKit.Subscriber.SignalRouting
import ContextKit.Subscriber.Silence
import ContextKit.Provider.ContextC
import ContextKit.Provider.ServiceStart
import ContextKit.Registry.DatabaseReplacement
import ContextKit.Registry.IncompatibleDatabase
import ContextKit.Text.FieldPattern
import ContextKit.Text.Segments
import ContextKit.Text.Utf8
import ContextKit.Tools.CommandLines
import ContextKit.Types.Duration
import ContextKit.Types.DurationParsing
import ContextKit.Types.NanoDom
import ContextKit.Types.Shorthand
import ContextKit.Types.StructuredTypes
import ContextKit.Types.TypeQueries
import ContextKit.Registry.Declarations
import ContextKit.Subscriber.PendingWatchers
import ContextKit.Subscriber.QueuedInvoker
import ContextKit.Delivery.Delivered
import ContextKit.Delivery.Progress
import ContextKit.Registry.DumpedRegistry
import ContextKit.Subscriber.DistinctProviders
import ContextKit.Subscriber.Library
