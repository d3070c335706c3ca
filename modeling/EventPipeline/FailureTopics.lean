/-! # Names of the retry path

An application's failed events travel on two topics, and one consumer group reads the first of them.
All three names come from the application's name, and no listener may use them.
-/

namespace EventPipeline

/-- The names that carry an application's failed events. -/
structure FailureTopics where
  /-- The topic of events that will be offered again. -/
  retryTopic : String
  /-- The group that reads the retry topic. -/
  retryGroup : String
  /-- The topic of events that will not be offered again. -/
  deadTopic : String
  deriving DecidableEq

namespace FailureTopics

/-- The names of an application. -/
def ofApp (app : String) : FailureTopics :=
  ⟨app ++ "_failure_topic", app ++ "_failure_consumer", app ++ "_dead_topic"⟩

/-- Whether a topic carries failed events. -/
def isReservedTopic (f : FailureTopics) (topic : String) : Bool :=
  topic == f.retryTopic || topic == f.deadTopic

/-- The first of a group and its topics that is a name of the retry path. -/
def collision? (f : FailureTopics) (group : String) (topics : List String) : Option String :=
  if group = f.retryGroup then some group else topics.find? f.isReservedTopic

end FailureTopics

end EventPipeline
