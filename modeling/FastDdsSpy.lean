import FastDdsSpy.Library.PastTime
import FastDdsSpy.Model.Types
import FastDdsSpy.Model.InstanceCache
import FastDdsSpy.Model.CacheThreads
import FastDdsSpy.Model.TopicRateCalculator
import FastDdsSpy.Model.DataStreamer
import FastDdsSpy.Model.StreamThreads
import FastDdsSpy.Model.SpyModel
import FastDdsSpy.Model.ModelParser
import FastDdsSpy.Model.Backend
import FastDdsSpy.Model.Controller
import FastDdsSpy.Model.System
import FastDdsSpy.Verification.Instances
import FastDdsSpy.Verification.InstanceCache.Equations
import FastDdsSpy.Verification.InstanceCache.Writers
import FastDdsSpy.Verification.InstanceCache.Refinement
import FastDdsSpy.Verification.InstanceCache.Threads
import FastDdsSpy.Verification.InstanceCache.Interleaving
import FastDdsSpy.Verification.InstanceCache.Capacity
import FastDdsSpy.Verification.DataStreamer.Equations
import FastDdsSpy.Verification.DataStreamer.Threads
import FastDdsSpy.Verification.Controller.Endpoints
import FastDdsSpy.Verification.Controller.Filters
import FastDdsSpy.Verification.ModelParser.Inactive
import FastDdsSpy.Verification.System.Steps
import FastDdsSpy.Verification.System.Departed
import FastDdsSpy.Verification.System.Listings
import FastDdsSpy.Verification.System.TopicFilters
import FastDdsSpy.Verification.System.LiveWriters
import FastDdsSpy.Verification.DataStreamer.Delivery
import FastDdsSpy.Verification.System.FilterErrors
import FastDdsSpy.Verification.ModelParser.Lookups
import FastDdsSpy.Verification.System.DatabaseKeys
import FastDdsSpy.Verification.ModelParser.Topics
import FastDdsSpy.Verification.ModelParser.TopicViews
import FastDdsSpy.Library.Counting
import FastDdsSpy.Verification.ModelParser.TopicCounts
import FastDdsSpy.Verification.ModelParser.ParticipantCounts
import FastDdsSpy.Verification.System.ParticipantViews
import FastDdsSpy.Verification.System.KeyFields
import FastDdsSpy.Verification.Controller.Threads
import FastDdsSpy.Library.OrderedPairs
import FastDdsSpy.Model.Json
import FastDdsSpy.Model.JsonFormat
import FastDdsSpy.Verification.Json.Strings
import FastDdsSpy.Verification.Json.Parser
import FastDdsSpy.Verification.Json.RoundTrip
import FastDdsSpy.Verification.Controller.PartitionFilter
import FastDdsSpy.Library.Arrangements
import FastDdsSpy.Verification.System.GuidQueries
import FastDdsSpy.Verification.TopicRateCalculator.Rate
import FastDdsSpy.Verification.System.TopicFilterMap
import FastDdsSpy.Verification.InstanceCache.FastPath
import FastDdsSpy.Model.TopicLists
import FastDdsSpy.Verification.TopicLists.InternalTopics
import FastDdsSpy.Library.Decimals
import FastDdsSpy.Model.YamlWriter
import FastDdsSpy.Verification.YamlWriter.KeyValues
import FastDdsSpy.Model.Arguments
import FastDdsSpy.Verification.Arguments.ReloadTime
import FastDdsSpy.Library.GroupByKey
import FastDdsSpy.Library.OrderedSearch
import FastDdsSpy.Verification.ModelParser.Grouping
import FastDdsSpy.Verification.ModelParser.TypeIdl
import FastDdsSpy.Verification.Controller.TopicsGrammar
import FastDdsSpy.Library.NumberLiteral
import FastDdsSpy.Model.NumberText
import FastDdsSpy.Verification.Json.NumberGrammar
import FastDdsSpy.Verification.Json.NumberDump
import FastDdsSpy.Verification.Json.NumberFloat
import FastDdsSpy.Verification.Json.Simulation
import FastDdsSpy.Verification.Json.PrintSimulation
import FastDdsSpy.Verification.Json.NumberChange
import FastDdsSpy.Verification.Json.Numbers
import FastDdsSpy.Verification.Json.StringGrammar
import FastDdsSpy.Verification.Json.Grammar
import FastDdsSpy.Library.Channels
import FastDdsSpy.Model.Discovery
import FastDdsSpy.Verification.Discovery.Steps
import FastDdsSpy.Verification.Discovery.Runs
import FastDdsSpy.Verification.Discovery.Shown
import FastDdsSpy.Verification.Discovery.Entries
import FastDdsSpy.Model.CommandLoop
import FastDdsSpy.Verification.CommandLoop.Sessions
import FastDdsSpy.Library.CriticalSections
import FastDdsSpy.Model.PrintThreads
import FastDdsSpy.Verification.DataStreamer.PrintedBlocks
import FastDdsSpy.Verification.Arguments.Options
import FastDdsSpy.Library.Utf8
import FastDdsSpy.Model.JsonBytes
import FastDdsSpy.Verification.Json.DumpBytes
import FastDdsSpy.Verification.Json.ScanBytes
import FastDdsSpy.Verification.Json.Bytes
import FastDdsSpy.Model.ByteJson
import FastDdsSpy.Verification.Json.LexerBytes
import FastDdsSpy.Verification.Json.ParserBytes
import FastDdsSpy.Verification.Json.DisplayBytes
import FastDdsSpy.Model.YamlViews
import FastDdsSpy.Verification.YamlWriter.Instances
import FastDdsSpy.Verification.YamlWriter.Views
