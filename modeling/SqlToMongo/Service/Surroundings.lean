/-!
# What a service learns from its surroundings
-/

namespace SqlToMongo.Service

/-- What the outer layer tells about the moment of a request. -/
structure Surroundings where
  /-- Seconds of the clock. -/
  now : Int
  /-- How long the work took, as a text. -/
  duration : String
  /-- An id for a request that has none. -/
  freshId : String
  /-- What is said of a text that cannot be read. -/
  cause : String

end SqlToMongo.Service
