import FastDdsSpy.Model.Types
import Mathlib.Order.WithBot

/-! # `TopicRateCalculator`

The rate is a `float` in the source; here it is exact, with `⊤` for the infinity that
stands for an unknown rate. -/

namespace FastDdsSpy

open Std

/-- `DataRateInfo`; the counter is an `unsigned int`. -/
structure DataRateInfo where
  firstDataTime : DataTime
  dataReceived : UInt32
  lastDataTime : DataTime
  deriving DecidableEq

/-- The value that `data_by_topic_[topic]` creates. -/
def DataRateInfo.initial : DataRateInfo := ⟨0, 0, 0⟩

/-- The entry of a topic after one more sample. -/
def DataRateInfo.addSample (info : DataRateInfo) (sourceTimestamp : DataTime) : DataRateInfo where
  firstDataTime := if info.dataReceived = 0 then sourceTimestamp else info.firstDataTime
  dataReceived := info.dataReceived + 1
  lastDataTime := sourceTimestamp

structure TopicRateCalculator where
  dataByTopic : ExtTreeMap DdsTopic DataRateInfo DdsTopic.cmp

namespace TopicRateCalculator

variable {π : Type*} (rates : TopicRateCalculator)

def empty : TopicRateCalculator := ⟨∅⟩

/-- `TopicRateCalculator::add_data`. -/
def addData (topic : DdsTopic) (data : RtpsPayloadData π) : TopicRateCalculator where
  dataByTopic := rates.dataByTopic.insert topic
    ((rates.dataByTopic[topic]?.getD .initial).addSample data.sourceTimestamp)

/-- `get_topic_rate`. -/
def getTopicRate (topic : DdsTopic) : WithTop ℚ :=
  match rates.dataByTopic[topic]? with
  | none => 0
  | some data =>
      let secondsElapsed := data.lastDataTime.seconds - data.firstDataTime.seconds
      if secondsElapsed = 0 then ⊤ else ↑((data.dataReceived.toNat : ℚ) / secondsElapsed)

end TopicRateCalculator

end FastDdsSpy
