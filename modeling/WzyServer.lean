import WzyServer.Base.Run
import WzyServer.Http.Body
import WzyServer.Http.Registrations
import WzyServer.Http.Isolation
import WzyServer.Http.Exposure
import WzyServer.Http.WriteLoop
import WzyServer.Http.KeepAlive
import WzyServer.Http.Login
import WzyServer.Http.ContentLength
import WzyServer.Http.Credentials
import WzyServer.Http.FormBounds
import WzyServer.Http.Mappings
import WzyServer.Log.BlockQueue
import WzyServer.Log.Delivery
import WzyServer.Log.Order
import WzyServer.Pool.ThreadPool
import WzyServer.Pool.Connections
import WzyServer.Pool.Workers
import WzyServer.Server.Batch
import WzyServer.Server.Correspondence
import WzyServer.Server.UserCount
import WzyServer.Server.TimerRuns
import WzyServer.Server.TimerAdjust
import WzyServer.Server.TimerExpiry
import WzyServer.Server.Ownership
import WzyServer.Server.Covered
import WzyServer.Http.RequestLine
import WzyServer.Http.BadLines
import WzyServer.Http.Statement
import WzyServer.Http.OpenedPath
import WzyServer.Http.Sizes
import WzyServer.Http.Recv
import WzyServer.Log.Format
import WzyServer.Log.Files
import WzyServer.Pool.Limit
import WzyServer.Pool.Interrupts
import WzyServer.Pool.Destroy
import WzyServer.Log.TimedPop
import WzyServer.Log.FrontBack
import WzyServer.Server.Tables
import WzyServer.Http.WriteBuffer
import WzyServer.Http.Cursors
import WzyServer.Http.LineFrame
import WzyServer.Server.Clock
import WzyServer.Server.Heartbeat
import WzyServer.Base.Simulation
import WzyServer.Server.HeapServer
import WzyServer.Server.Shutdown
import WzyServer.Http.Message
import WzyServer.Http.Application
import WzyServer.Http.Acceptance
import WzyServer.Http.Restart
import WzyServer.Pool.Service
import WzyServer.Base.Codec
import WzyServer.Http.Client
import WzyServer.Log.WakeUps
import WzyServer.Http.Stream
import WzyServer.Server.TimerTurns
import WzyServer.Http.Concurrent
import WzyServer.Log.Rolling
import WzyServer.Http.Traffic
import WzyServer.Log.ReadBack
import WzyServer.Server.Settling
