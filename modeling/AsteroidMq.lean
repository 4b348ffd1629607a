import AsteroidMq.Properties.Codec
import AsteroidMq.Properties.Delivery
import AsteroidMq.Properties.EpSync
import AsteroidMq.Properties.Overflow
import AsteroidMq.Properties.PushTarget
import AsteroidMq.Properties.Queue
import AsteroidMq.Properties.SnapshotLaws
import AsteroidMq.Properties.Tables
import AsteroidMq.Properties.Waiters
