import FastDdsSpy.Model.Types

/-! # `Backend`

Of the pipe and its participants only the filters handed over to them are kept: the
partitions, and for each topic name the last content filter expression. -/

namespace FastDdsSpy

open Std

/-- The fields of `yaml::Configuration` that the tool reads at start-up. -/
structure Configuration where
  ros2Types : Bool
  ddsEnabled : Bool
  allowedPartitionList : ExtTreeSet String
  contentTopicFilterDict : ExtTreeMap String String

structure Backend where
  partitions : ExtTreeSet String
  contentTopicfilter : ExtTreeMap String String

namespace Backend

/-- `update_readers_track_partitions`. -/
def updateReadersTrackPartitions (b : Backend) (partitionsSet : ExtTreeSet String) : Backend :=
  { b with partitions := partitionsSet }

/-- `update_readers_track_content_filter`. -/
def updateReadersTrackContentFilter (b : Backend) (topicName expression : String) : Backend :=
  { b with contentTopicfilter := b.contentTopicfilter.insert topicName expression }

/-- The constructor hands over the filters of the configuration. -/
def ofConfiguration (configuration : Configuration) : Backend :=
  configuration.contentTopicFilterDict.foldl updateReadersTrackContentFilter
    ⟨configuration.allowedPartitionList, ∅⟩

/-- The expression last handed over for a topic name; a topic without one is not filtered. -/
def effectiveFilter (b : Backend) (topicName : String) : String :=
  b.contentTopicfilter[topicName]?.getD ""

end Backend

end FastDdsSpy
